import VersionedObjects.Proofs.Shell.BrokenSessions

/-!
# The table of open frames

After every line the table of a session lists what its manager has open, neither more nor less: a
frame enters the table when it is opened and leaves it when it is closed, and the frames of the
manager are opened and closed by no other command. Main statement: `table_mirrors_manager`.
-/

namespace VersionedObjects.Shell

open VersionedObjects.Dynamic (EvalM Keeps LoadedClass Runtime Slots anything bind_of_ok keeps_get
  keeps_modify keeps_pure keeps_throw)
open Grammar (LoadError)
open Declaration (Module)
open Store (FrameId Generation World)

variable {β : Type} {P : LoadedClass → Prop} {s t : Session}

/-! ## What the table is like -/

/-- The generations of the frames in the table. -/
def Session.openGenerations (s : Session) : List Generation :=
  s.frames.map (·.1)

/-- The table lists the open generations of the manager in ascending order, each with a frame of
that generation that is open, and an active generation is listed. -/
structure Session.Mirrors (s : Session) : Prop where
  opened : (s.runtime.world.manager manager).openGenerations = s.openGenerations
  ascending : s.openGenerations.Pairwise (· < ·)
  made : ∀ entry ∈ s.frames, entry.2 < s.runtime.world.frames.length
  state : ∀ entry ∈ s.frames, (s.runtime.world.frame entry.2).state = .active
  generation : ∀ entry ∈ s.frames, (s.runtime.world.frame entry.2).generation = entry.1
  active : ∀ g, s.active = some g → g ∈ s.openGenerations

/-- The table of an intact session mirrors the manager. -/
theorem Session.Intact.mirrors (hs : s.Intact P) : s.Mirrors where
  opened := hs.opened
  ascending := by
    have hordered := hs.tidy.sound.timely.ordered
    rw [Session.openGenerations, ← hs.opened]
    exact List.pairwise_map.mpr (hordered.imp fun h => h.1)
  made entry hentry := (hs.held entry hentry).lt_length
  state entry hentry := by simpa [Store.Frame.isActive] using (hs.held entry hentry).active
  generation entry hentry := (hs.held entry hentry).generation
  active g hg := by
    obtain ⟨f, hf⟩ := hs.listed g hg
    exact List.mem_map.mpr ⟨(g, f), hf, rfl⟩

/-- A generation is looked up exactly if it is one of the open ones. -/
theorem exists_lookup_iff {g : Generation} :
    (∃ f, s.frames.lookup g = some f) ↔ g ∈ s.openGenerations := by
  constructor
  · rintro ⟨f, hf⟩
    exact List.mem_map.mpr ⟨(g, f), mem_of_lookup hf, rfl⟩
  · intro hmem
    by_contra hnone
    have hlookup : s.frames.lookup g = none :=
      Option.eq_none_iff_forall_ne_some.mpr fun f hf => hnone ⟨f, hf⟩
    obtain ⟨entry, hentry, hg⟩ := List.mem_map.mp hmem
    have hne := List.lookup_eq_none_iff.mp hlookup entry hentry
    simp [hg] at hne

/-! ## What commands do to the table -/

/-- What becomes of the table and the active frame by a command with some result. Opening adds one
frame, closing takes one away, also by a commit that is refused for a conflict, and what names no
frame of the table changes nothing. -/
def Session.Turns (s t : Session) (result : Except Problem String) : Command → Prop
  | .open none =>
    (∃ refusal, result = .error (.refusal refusal) ∧ t = s) ∨
      ∃ text g f, result = .ok text ∧ t.frames = s.frames ++ [(g, f)] ∧ t.active = some g
  | .open (some g) =>
    if g ∈ s.openGenerations then
      (∃ text, result = .ok text) ∧ t = { s with active := some g }
    else result = .error (.noOpenFrame g) ∧ t = s
  | .commit target =>
    match target <|> s.active with
    | none => result = .error .noActiveFrame ∧ t = s
    | some g =>
      if g ∈ s.openGenerations then
        ((∃ text, result = .ok text) ∨ ∃ o typeName committed,
          result = .error (.refusal (.conflict o typeName g committed))) ∧
        t.frames = s.frames.filter (·.1 ≠ g) ∧ t.active = s.active.filter (· ≠ g)
      else result = .error (.noOpenFrame g) ∧ t = s
  | .discard target =>
    match target <|> s.active with
    | none => result = .error .noActiveFrame ∧ t = s
    | some g =>
      if g ∈ s.openGenerations then
        (∃ text, result = .ok text) ∧
        t.frames = s.frames.filter (·.1 ≠ g) ∧ t.active = s.active.filter (· ≠ g)
      else result = .error (.noOpenFrame g) ∧ t = s
  | _ => t.frames = s.frames ∧ t.active = s.active

/-- The result of an operation and the session after it. -/
def outcome : EStateM.Result Problem Session String → Except Problem String × Session
  | .ok text t => (.ok text, t)
  | .error problem t => (.error problem, t)

/-- What becomes of the table by a command with the result of an operation. -/
def Session.TurnsBy (s : Session) (x : SessionM String) (command : Command) : Prop :=
  s.Turns (outcome (x s)).2 (outcome (x s)).1 command

/-! ## Opening and closing -/

/-- To open a frame turns the table as the command says. -/
theorem turns_openFrame (hs : s.Intact P) : s.TurnsBy openFrame (.open none) := by
  unfold Session.TurnsBy
  rcases openFrame_apply hs with ⟨refusal, hopen⟩ | ⟨text, w, g, f, hopen, -⟩
  · rw [hopen]
    exact .inl ⟨refusal, rfl, rfl⟩
  · rw [hopen]
    exact .inr ⟨text, g, f, rfl, rfl, rfl⟩

/-- To activate a frame turns the table as the command says. -/
theorem turns_activate (s : Session) (g : Generation) :
    s.TurnsBy (activate g) (.open (some g)) := by
  have hget : (get : SessionM Session) s = .ok s s := rfl
  unfold Session.TurnsBy activate
  rw [bind_of_ok hget]
  cases hlookup : s.frames.lookup g with
  | none =>
    have hg : g ∉ s.openGenerations := by simp [← exists_lookup_iff, hlookup]
    rw [Session.Turns, if_neg hg]
    exact ⟨rfl, rfl⟩
  | some f =>
    have hg : g ∈ s.openGenerations := exists_lookup_iff.mp ⟨f, hlookup⟩
    rw [Session.Turns, if_pos hg]
    exact ⟨⟨_, rfl⟩, rfl⟩

/-- Where the table lists no frame to close, nothing is closed. -/
theorem takeFrame_bind_of_notMem {x : Generation × FrameId → SessionM β}
    {target : Option Generation}
    (h : ∀ g, (target <|> s.active) = some g → g ∉ s.openGenerations) :
    (takeFrame target >>= x) s =
      .error ((target <|> s.active).elim .noActiveFrame .noOpenFrame) s :=
  takeFrame_bind_of_unlisted fun g f hg hf => h g hg (exists_lookup_iff.mp ⟨f, hf⟩)

/-- To commit a frame turns the table as the command says, whether or not it loses. -/
theorem turns_commitFrame (hs : s.Intact P) (target : Option Generation) :
    s.TurnsBy (commitFrame target) (.commit target) := by
  unfold Session.TurnsBy
  cases htarget : target <|> s.active with
  | none =>
    unfold commitFrame
    rw [takeFrame_bind_of_notMem (by simp [htarget]), htarget]
    simp [Session.Turns, htarget, outcome]
  | some g =>
    by_cases hg : g ∈ s.openGenerations
    · obtain ⟨f, hlookup⟩ := exists_lookup_iff.mpr hg
      obtain ⟨v, -, ⟨text, hcommit⟩ | ⟨o, typeName, committed, hcommit⟩⟩ :=
        commitFrame_of_lookup hs htarget hlookup
      · simp [hcommit, Session.Turns, htarget, hg, outcome, Session.dropFrame]
      · simp [hcommit, Session.Turns, htarget, hg, outcome, Session.dropFrame]
    · unfold commitFrame
      rw [takeFrame_bind_of_notMem (by simpa [htarget] using hg), htarget]
      simp [Session.Turns, htarget, hg, outcome]

/-- To discard a frame turns the table as the command says. -/
theorem turns_discardFrame (hs : s.Intact P) (target : Option Generation) :
    s.TurnsBy (discardFrame target) (.discard target) := by
  unfold Session.TurnsBy
  cases htarget : target <|> s.active with
  | none =>
    unfold discardFrame
    rw [takeFrame_bind_of_notMem (by simp [htarget]), htarget]
    simp [Session.Turns, htarget, outcome]
  | some g =>
    by_cases hg : g ∈ s.openGenerations
    · obtain ⟨f, hlookup⟩ := exists_lookup_iff.mpr hg
      obtain ⟨v, -, text, hdiscard⟩ := discardFrame_of_lookup hs htarget hlookup
      simp [hdiscard, Session.Turns, htarget, hg, outcome, Session.dropFrame]
    · unfold discardFrame
      rw [takeFrame_bind_of_notMem (by simpa [htarget] using hg), htarget]
      simp [Session.Turns, htarget, hg, outcome]

/-! ## Everything else -/

/-- An operation leaves the table and the active frame as they are. -/
def Settled (x : SessionM β) : Prop :=
  ∀ table active, Keeps (fun s : Session => s.frames = table ∧ s.active = active)
    (fun _ _ => True) anything x

/-- To give a text leaves the table as it is. -/
theorem settled_pure (b : β) : Settled (pure b) :=
  fun _ _ => keeps_pure trivial

/-- To look at the session leaves the table as it is. -/
theorem settled_get : Settled get :=
  fun _ _ _ hs => ⟨hs, trivial⟩

/-- To report a problem leaves the table as it is. -/
theorem settled_throw (problem : Problem) : Settled (throw problem : SessionM β) :=
  fun _ _ => keeps_throw fun _ => trivial

/-- A change of anything else leaves the table as it is. -/
theorem settled_modify {f : Session → Session} (hframes : ∀ s, (f s).frames = s.frames)
    (hactive : ∀ s, (f s).active = s.active) : Settled (modify f) := by
  intro table active
  refine keeps_modify fun s hs => ?_
  rw [hframes, hactive]
  exact hs

/-- A sequence leaves the table as it is if all of its parts do. -/
theorem Settled.bind {γ : Type} {x : SessionM β} {k : β → SessionM γ} (hx : Settled x)
    (hk : ∀ b, Settled (k b)) : Settled (x >>= k) :=
  fun table active => (hx table active).bind fun b _ => hk b table active

/-- To evaluate something leaves the table as it is, also when it fails. -/
theorem settled_evaluate (x : EvalM β) : Settled (evaluate x) := by
  intro table active s hs
  unfold evaluate
  cases x s.runtime with
  | ok b r => exact ⟨hs, trivial⟩
  | error e r => cases e <;> exact ⟨hs, trivial⟩

/-- To report a failed result leaves the table as it is. -/
theorem settled_orProblem {ε : Type} (problem : ε → Problem) (x : Except ε β) :
    Settled (orProblem problem x) := by
  cases x with
  | ok b => exact settled_pure b
  | error e => exact settled_throw (problem e)

/-- What runs in the active frame leaves the table as it is. -/
theorem settled_inActiveFrame (action : EvalM β) : Settled (inActiveFrame action) := by
  refine settled_get.bind fun s => ?_
  split
  · exact settled_evaluate _
  · exact settled_evaluate _

/-- To find the instance of a variable leaves the table as it is. -/
theorem settled_instanceOf (var : String) : Settled (instanceOf var) := by
  refine settled_get.bind fun s => ?_
  split
  · exact settled_pure _
  · exact settled_throw _

/-- To read properties leaves the table as it is. -/
theorem settled_getProperties (var : String) (property : Option String) :
    Settled (getProperties var property) := by
  refine (settled_instanceOf var).bind fun i => ?_
  cases property with
  | some property => exact (settled_inActiveFrame _).bind fun _ => settled_pure _
  | none => exact (settled_inActiveFrame _).bind fun _ => settled_pure _

/-- To describe a chain leaves the table as it is. -/
theorem settled_describeChain (var : String) : Settled (describeChain var) := by
  refine (settled_instanceOf var).bind fun i => settled_get.bind fun s => ?_
  dsimp only
  cases (s.runtime.inst i).object with
  | none => exact settled_throw _
  | some o => exact settled_pure _

/-- The command opens no frame, closes none and makes none active. -/
def Command.isAside : Command → Bool
  | .open _ | .commit _ | .discard _ => false
  | _ => true

/-- The table and the active frame are changed by the commands for frames only. -/
theorem settled_perform (load : String → Except LoadError Module) {command : Command}
    (h : command.isAside = true) : Settled (perform load command) := by
  cases command with
  | help => exact settled_pure _
  | quit => exact (settled_modify (fun _ => by rfl) fun _ => by rfl).bind fun _ => settled_pure _
  | quiet =>
    exact (settled_modify (fun _ => by rfl) fun _ => by rfl).bind fun _ =>
      settled_get.bind fun _ => settled_pure _
  | load path =>
    exact (settled_orProblem _ _).bind fun _ => (settled_evaluate _).bind fun _ =>
      (settled_orProblem _ _).bind fun _ => settled_pure _
  | declare source =>
    exact (settled_evaluate _).bind fun _ =>
      (settled_orProblem _ _).bind fun _ => settled_pure _
  | new var className args =>
    exact (settled_orProblem _ _).bind fun _ => (settled_inActiveFrame _).bind fun _ =>
      (settled_modify (fun _ => by rfl) fun _ => by rfl).bind fun _ =>
        settled_get.bind fun _ => settled_pure _
  | get var property => exact settled_getProperties var property
  | set var property value =>
    exact (settled_instanceOf var).bind fun _ => (settled_orProblem _ _).bind fun _ =>
      (settled_inActiveFrame _).bind fun _ => settled_pure _
  | frames => exact settled_get.bind fun _ => settled_pure _
  | chain var => exact settled_describeChain var
  | gc => exact settled_get.bind fun _ => (settled_evaluate _).bind fun _ => settled_pure _
  | classes => exact settled_get.bind fun _ => settled_pure _
  | «open» _ => cases h
  | commit _ => cases h
  | discard _ => cases h

/-- Every command turns the table as it says, and every other one leaves it as it is. -/
theorem turns_perform (hs : s.Intact P) (load : String → Except LoadError Module)
    (command : Command) : s.TurnsBy (perform load command) command := by
  have haside (h : command.isAside = true) :
      let t := (outcome (perform load command s)).2
      t.frames = s.frames ∧ t.active = s.active := by
    have hkept := settled_perform load h s.frames s.active s ⟨rfl, rfl⟩
    cases hresult : perform load command s with
    | ok text t => exact (hresult ▸ hkept).1
    | error problem t => exact (hresult ▸ hkept).1
  cases command with
  | «open» target =>
    cases target with
    | none => exact turns_openFrame hs
    | some g => exact turns_activate s g
  | commit target => exact turns_commitFrame hs target
  | discard target => exact turns_discardFrame hs target
  | _ => exact haside rfl

/-- A line turns the table by its command, and does nothing where it has none. -/
theorem turns_enter (hs : s.Intact P) (input : Input) :
    match parseCommand input.line with
    | .ok command => s.Turns (s.enter input).2 (s.enter input).1 command
    | .error e => s.enter input = (.error (.command e), s) := by
  unfold Session.enter Session.run
  cases parseCommand input.line with
  | error e => rfl
  | ok command =>
    have hturns := turns_perform hs input.load command
    unfold Session.TurnsBy at hturns
    cases hresult : perform input.load command s with
    | ok text t => simpa [hresult, outcome] using hturns
    | error problem t => simpa [hresult, outcome] using hturns

/-- **The table of open frames mirrors the manager.** Whatever lines are entered and files loaded,
after each line the table lists the open generations of the manager, each with an open frame, and
an active generation is one of them. Of the commands only opening and closing change the table or
the active frame: a commit, be it refused for a conflict, and a discard remove exactly their frame,
and what is refused or names no frame of the table changes neither. -/
theorem table_mirrors_manager (config : Store.Config) (inputs : List Input) :
    let s := (Session.start config).after inputs
    s.Mirrors ∧ ∀ input, (s.enter input).2.Mirrors ∧
      match parseCommand input.line with
      | .ok command => s.Turns (s.enter input).2 (s.enter input).1 command
      | .error e => s.enter input = (.error (.command e), s) := by
  intro s
  have hs : s.Intact fun _ => True := (intact_start config).after fun _ _ _ _ _ _ => trivial
  have hentered (input : Input) : (s.enter input).2.Intact fun _ => True :=
    (sustains_enter hs fun _ _ _ _ => trivial).1
  exact ⟨hs.mirrors, fun input => ⟨(hentered input).mirrors, turns_enter hs input⟩⟩

end VersionedObjects.Shell
