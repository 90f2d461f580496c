import VersionedObjects.Proofs.Dynamic.Evaluation
import VersionedObjects.Proofs.Dynamic.RecordAccess

/-!
# Code of instances that refer to each other

Instances from some position on refer to each other only, and own certain objects. Whatever their
code does to the store it does to these objects: it announces them, reads and writes them, and
changes what records hold. What all of this preserves, code of any of the instances preserves, to
whatever depth accessors may call each other. Main statements: `Enclosed.runAll` and
`Runtime.Encloses.enclosed_at`.
-/

namespace VersionedObjects

/-- The statement announces the object under construction. -/
def Declaration.Stmt.announces : Declaration.Stmt → Bool
  | .notifyCreated => true
  | _ => false

namespace Dynamic

open Declaration
open Store (ObjectId World)

/-! ## Operations that may fail midway -/

/-- An operation succeeded, and led to a runtime of one kind with its value, or failed, and led to a
runtime of another kind. -/
def Leads {α : Type} (done : α → Runtime → Prop) (failed : Runtime → Prop) :
    EStateM.Result Failure Runtime α → Prop
  | .ok a later => done a later
  | .error _ later => failed later

/-- The runtime after an operation, whatever came of it. -/
def stateAfter {α : Type} (x : EvalM α) (r : Runtime) : Runtime :=
  match x r with
  | .ok _ later => later
  | .error _ later => later

/-- From a runtime of some kind the operation leads to one of the same kind, in any case. -/
abbrev Preserves {α : Type} (P : Runtime → Prop) (x : EvalM α) : Prop :=
  Keeps P (fun _ _ => True) anything x

section

variable {α β : Type} {P : Runtime → Prop} {r : Runtime} {x : EvalM α} {k : α → EvalM β}

/-- A sequence leads where its next part does, after what its first part leads to. -/
theorem Leads.bind {done : α → Runtime → Prop} {done' : β → Runtime → Prop}
    {failed failed' : Runtime → Prop} (hx : Leads done failed (x r))
    (hfailed : ∀ later, failed later → failed' later)
    (hk : ∀ a later, done a later → Leads done' failed' (k a later)) :
    Leads done' failed' ((x >>= k) r) := by
  cases hresult : x r with
  | ok a later =>
    rw [hresult] at hx
    rw [bind_of_ok hresult]
    exact hk a later hx
  | error e later =>
    rw [hresult] at hx
    rw [bind_of_error hresult]
    exact hfailed later hx

/-- Where something leads may be put more weakly. -/
theorem Leads.mono {done done' : α → Runtime → Prop} {failed failed' : Runtime → Prop}
    {result : EStateM.Result Failure Runtime α} (h : Leads done failed result)
    (hdone : ∀ a later, done a later → done' a later)
    (hfailed : ∀ later, failed later → failed' later) : Leads done' failed' result := by
  cases result with
  | ok a later => exact hdone a later h
  | error e later => exact hfailed later h

/-- What is known of how the operation ended. -/
theorem Leads.result {done : α → Runtime → Prop} {failed : Runtime → Prop}
    (h : Leads done failed (x r)) :
    Leads (fun a later => x r = .ok a later ∧ done a later) failed (x r) := by
  cases hresult : x r with
  | ok a later => rw [hresult] at h; exact ⟨rfl, h⟩
  | error e later => rw [hresult] at h; exact h

/-- What leads to runtimes of one kind only is after it in a runtime of that kind. -/
theorem Leads.stateAfter (h : Leads (fun _ => P) P (x r)) : P (stateAfter x r) := by
  unfold Dynamic.stateAfter
  cases hresult : x r with
  | ok a later => rw [hresult] at h; exact h
  | error e later => rw [hresult] at h; exact h

/-- To give a value preserves everything. -/
theorem preserves_pure (a : α) : Preserves P (pure a) :=
  keeps_pure trivial

/-- To fail with an error preserves everything. -/
theorem preserves_fail (e : EvalError) : Preserves P (fail e : EvalM α) :=
  keeps_fail (fun _ _ => trivial) e

/-- An operation on the store preserves what its world does. -/
theorem preserves_onStore {action : Store.StoreM Slots α}
    (h : ∀ s, P s → P { s with world := (s.world.running action).2 }) :
    Preserves P (onStore action) := by
  unfold World.running at h
  refine keeps_onStore (fun s a w hs hrun => ?_) fun s v w hs hrun => ?_
  · have hw := h s hs
    rw [hrun] at hw
    exact ⟨hw, trivial⟩
  · have hw := h s hs
    rw [hrun] at hw
    exact ⟨hw, trivial⟩

/-- What preserves a kind of runtime leads to that kind, in any case. -/
theorem Preserves.leads (hx : Preserves P x) (hr : P r) : Leads (fun _ => P) P (x r) := by
  have hkept := hx r hr
  cases hresult : x r with
  | ok a later => rw [hresult] at hkept; exact hkept.1
  | error e later => rw [hresult] at hkept; exact hkept.1

/-- To ask whether an object is visible preserves everything. -/
theorem preserves_ensureVisible (self : Instance) : Preserves P (ensureVisible self) := by
  unfold ensureVisible
  split
  · refine keeps_get.bind fun s _ => ?_
    split
    · exact preserves_fail _
    · exact preserves_pure ()
  · exact preserves_pure ()

/-- By induction on the items. -/
theorem preserves_mapM {f : α → EvalM β} (hf : ∀ a, Preserves P (f a)) (items : List α) :
    Preserves P (items.mapM f) := by
  induction items with
  | nil => exact preserves_pure []
  | cons item rest ih =>
    rw [List.mapM_cons]
    exact (hf item).bind fun b _ => ih.bind fun bs _ => preserves_pure (b :: bs)

end

/-! ## Accessors -/

/-- Reading and writing properties of the parts preserves what it is about. -/
def Calls.Preserve (calls : Calls) (P : Runtime → Prop) (first : InstanceId) : Prop :=
  ∀ i, first ≤ i → ∀ name, Preserves P (calls.get i name) ∧
    ∀ value, Preserves P (calls.set i name value)

/-- What is kept of runtimes in which the instances from some position on refer to each other and
own certain objects: it is kept by whatever their code does to fields, and to these objects. -/
structure Enclosed (P : Runtime → Prop) (first : InstanceId) (owns : ObjectId → Prop) : Prop where
  base : ∀ s, P s → ∀ i, first ≤ i → ∀ b, (s.inst i).base = some b → first ≤ b
  object : ∀ s, P s → ∀ i, first ≤ i → ∀ o, (s.inst i).object = some o → owns o
  setField : ∀ s i name value, P s → P (s.modifyFields i (·.put name value))
  announce : ∀ s o, P s → owns o → P { s with world := s.world.notifyCreated o }
  store : ∀ s o g change, P s → P { s with world := s.world.store o g change }
  readable : ∀ s o, P s → owns o →
    P { s with world := (s.world.running (Store.readable o)).2 }
  writable : ∀ s o, P s → owns o →
    P { s with world := (s.world.running (Store.writable o)).2 }

namespace Enclosed

variable {P : Runtime → Prop} {first i : InstanceId} {owns : ObjectId → Prop} {calls : Calls}

/-- What is enclosed has the premises of an evaluation in the scope of one of its instances. -/
theorem premises (h : Enclosed P first owns) (hcalls : calls.Preserve P first) (hi : first ≤ i)
    (property : Option String) :
    Premises P (fun _ _ => True) calls { self := i, property } owns True where
  error _ _ := trivial
  get name := (hcalls i hi name).1
  set name value := (hcalls i hi name).2 value
  setField s name value := h.setField s i name value
  object s o hs ho := h.object s hs i hi o ho
  announce s o := h.announce s o
  store s o g change := h.store s o g change
  readable o ho := preserves_onStore fun s hs => h.readable s o hs ho
  writable _ o ho := preserves_onStore fun s hs => h.writable s o hs ho

/-- To read a property of an enclosed instance preserves what is enclosed. -/
theorem getProperty (h : Enclosed P first owns) (hcalls : calls.Preserve P first) (hi : first ≤ i)
    (name : String) : Preserves P (Dynamic.getProperty calls i name) := by
  unfold Dynamic.getProperty
  refine keeps_get.bind fun s hs => ?_
  dsimp only
  cases (s.inst i).cls.decl.property? name with
  | none =>
    dsimp only
    cases hbase : (s.inst i).base with
    | none => exact preserves_fail _
    | some b => exact (hcalls b (h.base s hs i hi b hbase) name).1
  | some p =>
    refine (preserves_ensureVisible _).bind fun _ _ =>
      ((h.premises hcalls hi _).run (fun _ => trivial) _).bind fun value _ => ?_
    cases value with
    | none => exact preserves_fail _
    | some value => exact preserves_pure value

/-- To set a property of an enclosed instance preserves what is enclosed. -/
theorem setProperty (h : Enclosed P first owns) (hcalls : calls.Preserve P first) (hi : first ≤ i)
    (name : String) (value : Value) :
    Preserves P (Dynamic.setProperty calls i name value) := by
  unfold Dynamic.setProperty
  refine keeps_get.bind fun s hs => ?_
  dsimp only
  cases (s.inst i).cls.decl.property? name with
  | none =>
    dsimp only
    cases hbase : (s.inst i).base with
    | none => exact preserves_fail _
    | some b => exact (hcalls b (h.base s hs i hi b hbase) name).2 value
  | some p =>
    dsimp only
    split
    · exact preserves_fail _
    split
    · exact preserves_fail _
    refine keeps_get.bind fun _ _ => ?_
    split
    · exact preserves_fail _
    refine (preserves_ensureVisible _).bind fun _ _ =>
      ((h.premises hcalls hi _).run (fun _ => trivial) _).bind fun _ _ => preserves_pure ()

/-- By induction on the depth. -/
theorem preserve_ofDepth (h : Enclosed P first owns) (d : Nat) :
    (Calls.ofDepth d).Preserve P first := by
  induction d with
  | zero => exact fun i _ name => ⟨fun s hs => ⟨hs, trivial⟩, fun value s hs => ⟨hs, trivial⟩⟩
  | succ d ih => exact fun i hi name => ⟨h.getProperty ih hi name, h.setProperty ih hi name⟩

/-- To read all properties preserves what is enclosed. -/
theorem readProperties (h : Enclosed P 0 owns) (i : InstanceId) :
    Preserves P (Dynamic.readProperties i) := by
  have hget (name : String) := (h.preserve_ofDepth callDepth i (Nat.zero_le i) name).1
  unfold Dynamic.readProperties properties
  refine keeps_get.bind fun s _ => (preserves_mapM (fun name => ?_) _).bind fun _ _ =>
    preserves_pure _
  exact (hget name).bind fun value _ => preserves_pure (name, value)

/-- A statement in the scope of an enclosed instance preserves what is enclosed. -/
theorem exec (h : Enclosed P first owns) (hi : first ≤ i) (d : Nat) (locals : Association Value)
    (stmt : Stmt) :
    Preserves P (Dynamic.exec (.ofDepth d) { self := i, property := none } locals stmt) :=
  (h.premises (h.preserve_ofDepth d) hi none).exec locals fun _ => trivial

/-- Statements in the scope of an enclosed instance preserve what is enclosed. -/
theorem runAll (h : Enclosed P first owns) (hi : first ≤ i) (d : Nat) (locals : Association Value)
    (body : List Stmt) :
    Preserves P (Dynamic.runAll (.ofDepth d) { self := i, property := none } locals body) :=
  (h.premises (h.preserve_ofDepth d) hi none).runAll (fun _ => trivial) locals

end Enclosed

/-- The statement that announces an instance announces its object, and does nothing else. -/
theorem exec_notifyCreated {calls : Calls} {r : Runtime} {sc : Scope} {o : ObjectId}
    (locals : Association Value) (h : (r.inst sc.self).object = some o) :
    exec calls sc locals .notifyCreated r =
      .ok (none, locals) { r with world := r.world.notifyCreated o } := by
  rw [exec, bind_of_ok (object_apply h)]
  rfl

/-- By induction on the statements: those that announce the object of their instance do so unless an
earlier one fails. -/
theorem Enclosed.runAll_announces {P Q : Runtime → Prop} {first i : InstanceId}
    {owns : ObjectId → Prop} (hP : Enclosed P first owns) (hQ : Enclosed Q first owns)
    (hi : first ≤ i) {o : ObjectId} (hobject : ∀ s, P s → (s.inst i).object = some o)
    (hannounce : ∀ s, P s → Q { s with world := s.world.notifyCreated o }) (d : Nat)
    {body : List Stmt} (hbody : body.any (·.announces) = true) (locals : Association Value)
    {s : Runtime} (hs : P s) :
    Leads (fun _ => Q) (fun later => P later ∨ Q later)
      (Dynamic.runAll (.ofDepth d) { self := i, property := none } locals body s) := by
  induction body generalizing s locals with
  | nil => cases hbody
  | cons stmt rest ih =>
    cases stmt with
    | notifyCreated =>
      rw [Dynamic.runAll, bind_of_ok (exec_notifyCreated locals (hobject s hs))]
      exact ((hQ.runAll hi d locals rest).leads (hannounce s hs)).mono (fun _ _ => id)
        fun _ => Or.inr
    | _ =>
      rw [Dynamic.runAll]
      refine ((hP.exec hi d locals _).leads hs).bind (fun _ => Or.inl) fun result later hlater => ?_
      exact ih hbody result.2 hlater

/-! ## Runtimes at work -/

/-- An instance without its stored values. -/
def Instance.skeleton (part : Instance) : Instance :=
  { part with fields := [] }

/-- The instances of a runtime without their stored values. -/
def Runtime.skeletons (r : Runtime) : List Instance :=
  r.instances.map Instance.skeleton

/-- To change the fields of an instance changes no skeletons. -/
theorem skeletons_modifyFields (r : Runtime) (i : InstanceId)
    (f : Association Value → Association Value) :
    (r.modifyFields i f).skeletons = r.skeletons := by
  refine List.ext_getElem? fun j => ?_
  simp only [Runtime.skeletons, Runtime.modifyFields, List.getElem?_map, List.getElem?_modify]
  split
  · cases r.instances[j]? <;> rfl
  · simp

/-- The skeleton of an instance is the one at its position. -/
theorem skeleton_inst (r : Runtime) (i : InstanceId) :
    (r.inst i).skeleton = r.skeletons[i]?.getD default := by
  rw [Runtime.skeletons, List.getElem?_map, Runtime.inst]
  cases r.instances[i]? <;> rfl

/-- Where the skeletons are the same an instance has the same skeleton. -/
theorem skeleton_inst_congr {r later : Runtime} (h : later.skeletons = r.skeletons)
    (i : InstanceId) : (later.inst i).skeleton = (r.inst i).skeleton := by
  rw [skeleton_inst, skeleton_inst, h]

/-- A runtime that another one came to without more classes and instances, in a world of some
kind. -/
structure Runtime.At (W : World Slots → Prop) (later r : Runtime) : Prop where
  world : W later.world
  tables : later.tables = r.tables
  skeletons : later.skeletons = r.skeletons

/-- What is kept of the world by whatever code does to the objects of a range. -/
structure Tended (W : World Slots → Prop) (first bound : ObjectId) : Prop where
  announce : ∀ v o, W v → first ≤ o → o < bound → W (v.notifyCreated o)
  store : ∀ v o g change, W v → W (v.store o g change)
  readable : ∀ v o, W v → first ≤ o → o < bound → W (v.running (Store.readable o)).2
  writable : ∀ v o, W v → first ≤ o → o < bound → W (v.running (Store.writable o)).2

/-- The instances from some position on refer to each other, and their objects are in a range. -/
structure Runtime.Encloses (r : Runtime) (i₀ : InstanceId) (first bound : ObjectId) : Prop where
  base : ∀ i, i₀ ≤ i → ∀ b, (r.inst i).base = some b → i₀ ≤ b
  object : ∀ i, i₀ ≤ i → ∀ o, (r.inst i).object = some o → first ≤ o ∧ o < bound

/-- Code of the instances comes to runtimes without more classes and instances, in a world of the
same kind. -/
theorem Runtime.Encloses.enclosed_at {r : Runtime} {i₀ : InstanceId} {first bound : ObjectId}
    (h : r.Encloses i₀ first bound) {W : World Slots → Prop} (hW : Tended W first bound) :
    Enclosed (·.At W r) i₀ fun o => first ≤ o ∧ o < bound where
  base s hs i hi b hb := by
    have hsame := congrArg Instance.base (skeleton_inst_congr hs.skeletons i)
    exact h.base i hi b (hsame.symm.trans hb)
  object s hs i hi o ho := by
    have hsame := congrArg Instance.object (skeleton_inst_congr hs.skeletons i)
    exact h.object i hi o (hsame.symm.trans ho)
  setField s i name value hs :=
    ⟨hs.world, hs.tables, (skeletons_modifyFields s i _).trans hs.skeletons⟩
  announce s o hs ho := { hs with world := hW.announce _ o hs.world ho.1 ho.2 }
  store s o g change hs := { hs with world := hW.store _ o g change hs.world }
  readable s o hs ho := { hs with world := hW.readable _ o hs.world ho.1 ho.2 }
  writable s o hs ho := { hs with world := hW.writable _ o hs.world ho.1 ho.2 }

end Dynamic

end VersionedObjects
