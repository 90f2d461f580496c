import VersionedObjects.Proofs.Dynamic.EnclosedCode
import VersionedObjects.Proofs.Dynamic.Instantiation
import VersionedObjects.Proofs.Store.VisibleObjects

/-!
# What code may violate

An accessor runs only where its object is visible, and the setter of a framed property only inside
a frame. So what runs inside an open frame, or outside of all frames, misuses the store in one way
at most: outside of frames it writes a record where no frame was asked for, as a getter may. Main
statements: `safe_ofDepth`, `safe_makeInstance` and `safe_readProperties`.
-/

namespace VersionedObjects.Dynamic

open Declaration
open Store (ManagerId ObjectId)

/-- Code of the class may write a record where no frame was asked for: what runs when an instance is
made, a getter, or the setter of a property without a slot. -/
inductive LoadedClass.Unguarded (c : LoadedClass) : Prop
  | making (h : (c.decl.initializers.flatten ++ c.constructor.body).any (·.writesRecord) = true)
  | getter {p : Property} {accessor : Accessor} (hp : p ∈ c.decl.properties)
      (haccessor : p.getter = some accessor) (h : accessor.body.any (·.writesRecord) = true)
  | setter {p : Property} {accessor : Accessor} (hp : p ∈ c.decl.properties)
      (hslot : c.slot? p.name = none) (haccessor : p.setter = some accessor)
      (h : accessor.body.any (·.writesRecord) = true)

/-- The failures that evaluation may come to: errors that are reported, calls that nest too deep,
and, outside of frames, a write of unguarded code. -/
inductive Accounted : Failure → Runtime → Prop
  | eval (e : EvalError) (r : Runtime) : Accounted (.eval e) r
  | exhausted (r : Runtime) : Accounted .exhausted r
  | noFrame {r : Runtime} {part : Instance} (hplace : r.world.current = none)
      (hpart : part ∈ r.instances) (hcode : part.cls.Unguarded) (typeName : String)
      (o : ObjectId) : Accounted (.violation (.noFrame typeName o)) r

/-! ## What evaluation keeps -/

/-- What of an instance never changes. -/
def Instance.role (part : Instance) : LoadedClass × Option ObjectId :=
  (part.cls, part.object)

/-- A runtime that another one came to by evaluation where it was: instances of loaded classes may
have been added. -/
structure Runtime.Continues (later r : Runtime) : Prop where
  world : later.world.Continues r.world
  tables : later.tables = r.tables
  roles : r.instances.map Instance.role <+: later.instances.map Instance.role
  classes : ∀ part ∈ later.instances, (∃ old ∈ r.instances, old.cls = part.cls) ∨
    ∃ entry ∈ r.table 0, entry.2 = part.cls

/-- An instance that was made is one of the instances. -/
theorem Runtime.inst_mem {r : Runtime} {i : InstanceId} (hi : i < r.instances.length) :
    r.inst i ∈ r.instances := by
  rw [Runtime.inst, List.getElem?_eq_getElem hi]
  exact List.getElem_mem hi

/-- The skeletons of instances have their roles. -/
theorem map_role_skeletons (r : Runtime) :
    r.skeletons.map Instance.role = r.instances.map Instance.role := by
  rw [Runtime.skeletons, List.map_map]
  rfl

/-- To change the fields of an instance changes no roles. -/
theorem roles_modifyFields (r : Runtime) (i : InstanceId)
    (f : Association Value → Association Value) :
    (r.modifyFields i f).instances.map Instance.role = r.instances.map Instance.role := by
  rw [← map_role_skeletons, skeletons_modifyFields, map_role_skeletons]

namespace Runtime.Continues

variable {r later latest : Runtime}

/-- A runtime with a world that continues is one that continues. -/
theorem of_world {w : Store.World Slots} (hw : w.Continues r.world) :
    Runtime.Continues { r with world := w } r :=
  ⟨hw, rfl, List.prefix_rfl, fun part hpart => .inl ⟨part, hpart, rfl⟩⟩

/-- A runtime continues from itself. -/
theorem refl (hr : r.world.Tidy) : r.Continues r :=
  of_world (.refl hr)

/-- What continues from a later runtime continues from the first. -/
theorem trans (h : later.Continues r) (h' : latest.Continues later) : latest.Continues r := by
  refine ⟨h.world.trans h'.world, h'.tables.trans h.tables, h.roles.trans h'.roles,
    fun part hpart => ?_⟩
  rcases h'.classes part hpart with ⟨old, hold, heq⟩ | ⟨entry, hentry, heq⟩
  · exact heq ▸ h.classes old hold
  · rw [Runtime.table, h.tables] at hentry
    exact .inr ⟨entry, hentry, heq⟩

/-- No instance goes away. -/
theorem length_le (h : later.Continues r) : r.instances.length ≤ later.instances.length := by
  simpa using h.roles.length_le

/-- The instances are what they were. -/
theorem part_eq (h : later.Continues r) {i : InstanceId} (hi : i < r.instances.length) :
    (later.inst i).cls = (r.inst i).cls ∧ (later.inst i).object = (r.inst i).object := by
  have hrole (s : Runtime) (hs : i < s.instances.length) :
      (s.instances.map Instance.role)[i]? = some (s.inst i).role := by
    rw [List.getElem?_map, Runtime.inst, List.getElem?_eq_getElem hs]
    rfl
  have hlater := hrole later (Nat.lt_of_lt_of_le hi h.length_le)
  obtain ⟨more, hmore⟩ := h.roles
  rw [← hmore, List.getElem?_append_left (by simpa using hi), hrole r hi] at hlater
  exact Prod.mk.inj (Option.some.inj hlater.symm)

end Runtime.Continues

/-- Evaluation came to a later runtime, with a failure that is accounted for if any. -/
abbrev Outcome {α : Type} (r : Runtime) : EStateM.Result Failure Runtime α → Prop :=
  Kept (fun later => later.Continues r) Accounted anything

/-- Wherever an operation runs, it comes to a later runtime, with a failure that is accounted for if
any. -/
def Safe {α : Type} (x : EvalM α) : Prop :=
  ∀ r : Runtime, r.world.AtWork → Outcome r (x r)

section

variable {α β : Type} {r later : Runtime}

/-- What came of a later runtime came of the first. -/
theorem Outcome.trans (h : later.Continues r) {result : EStateM.Result Failure Runtime α}
    (hresult : Outcome later result) : Outcome r result :=
  hresult.mono (fun _ hlatest => h.trans hlatest) (fun _ _ _ => id) fun _ => id

/-- What keeps to runtimes that continue has an outcome that is accounted for. -/
theorem Keeps.outcome {x : EvalM α} {Q : α → Prop}
    (hx : Keeps (fun later => later.Continues r) Accounted Q x) (hr : r.world.Tidy) :
    Outcome r (x r) :=
  (hx r (.refl hr)).mono (fun _ => id) (fun _ _ _ => id) fun _ _ => trivial

/-- What is safe keeps to runtimes that continue. -/
theorem Safe.keeps {x : EvalM α} (hx : Safe x) (hr : r.world.AtWork) :
    Keeps (fun later => later.Continues r) Accounted anything x := fun later hlater =>
  (hx later (hr.continues hlater.world)).trans hlater

/-- A sequence is accounted for if its first part is, and then all that may come next. -/
theorem Outcome.bind {x : EvalM α} {k : α → EvalM β} (hx : Outcome r (x r))
    (hk : ∀ a later, later.Continues r → Outcome later (k a later)) :
    Outcome r ((x >>= k) r) := by
  cases hresult : x r with
  | ok a later =>
    rw [hresult] at hx
    rw [bind_of_ok hresult]
    exact Outcome.trans hx.1 (hk a later hx.1)
  | error e later =>
    rw [hresult] at hx
    rw [bind_of_error hresult]
    exact hx

/-- A sequence is safe if its first part is and all that may come next. -/
theorem Safe.bind {x : EvalM α} {k : α → EvalM β} (hx : Safe x) (hk : ∀ a, Safe (k a)) :
    Safe (x >>= k) := fun r hr =>
  (hx r hr).bind fun a later hlater => hk a later (hr.continues hlater.world)

/-- To give a value is safe. -/
theorem safe_pure (a : α) : Safe (pure a) := fun _ hr =>
  Keeps.outcome (Q := anything) (keeps_pure trivial) hr.tidy

/-- To fail with an error is safe. -/
theorem safe_fail (e : EvalError) : Safe (fail e : EvalM α) := fun _ hr =>
  Keeps.outcome (Q := anything) (keeps_fail .eval e) hr.tidy

/-- To look at the runtime is safe. -/
theorem safe_runtime : Safe (getThe Runtime) := fun _ hr =>
  ⟨.refl hr.tidy, trivial⟩

/-- To do something safe for every item is safe. -/
theorem safe_mapM {f : α → EvalM β} (hf : ∀ a, Safe (f a)) (items : List α) :
    Safe (items.mapM f) := by
  induction items with
  | nil => exact safe_pure []
  | cons item rest ih =>
    rw [List.mapM_cons]
    exact (hf item).bind fun b => ih.bind fun bs => safe_pure (b :: bs)

end

/-- Reading and writing properties is safe. -/
def Calls.Safe (calls : Calls) : Prop :=
  ∀ i name, Dynamic.Safe (calls.get i name) ∧ ∀ value, Dynamic.Safe (calls.set i name value)

/-! ## Accessors -/

section

variable {r : Runtime} {calls : Calls}

/-- What the code of a visible instance does. -/
theorem premises_safe (sc : Scope) (hcalls : calls.Safe) (hr : r.world.AtWork)
    (hself : sc.self < r.instances.length)
    (hvisible : ∀ o, (r.inst sc.self).object = some o → r.world.hasVisibleRecord o = true) :
    Premises (fun later => later.Continues r) Accounted calls sc
      (fun o => r.world.hasVisibleRecord o = true)
      (r.world.current ≠ none ∨ (r.inst sc.self).cls.Unguarded) where
  error := .eval
  get name := (hcalls sc.self name).1.keeps hr
  set name value := ((hcalls sc.self name).2 value).keeps hr
  setField later name value h := by
    have hroles := roles_modifyFields later sc.self (·.put name value)
    refine ⟨h.world, h.tables, hroles.symm ▸ h.roles, fun part hpart => ?_⟩
    obtain ⟨old, hold, hrole⟩ := List.mem_map.mp (hroles ▸ List.mem_map_of_mem hpart)
    have hcls : old.cls = part.cls := congrArg Prod.fst hrole
    exact hcls ▸ h.classes old hold
  object _ o h ho := hvisible o ((h.part_eq hself).2.symm.trans ho)
  announce later o h _ :=
    h.trans (.of_world ((hr.continues h.world).notifyCreated o))
  store later o g change h :=
    h.trans (.of_world ((hr.continues h.world).store o g change))
  readable o ho later h := by
    obtain ⟨record, hread⟩ := (hr.continues h.world).readable (h.world.visible o ho)
    change Store.readable o later.world = _ at hread
    rw [onStore, hread]
    exact ⟨h, trivial⟩
  writable hwrites o ho later h := by
    have hlater := hr.continues h.world
    cases hplace : later.world.current with
    | some f =>
      obtain ⟨record, w, hwrite, hw⟩ := hlater.writable hplace (h.world.visible o ho)
      change Store.writable o later.world = _ at hwrite
      rw [onStore, hwrite]
      exact ⟨h.trans (.of_world hw), trivial⟩
    | none =>
      have hcode : (r.inst sc.self).cls.Unguarded :=
        hwrites.resolve_left (not_not_intro (h.world.current.symm.trans hplace))
      have hwrite := Store.World.writable_run later.world o
      rw [hplace] at hwrite
      change Store.writable o later.world = _ at hwrite
      rw [onStore, hwrite]
      have hlt := Nat.lt_of_lt_of_le hself h.length_le
      exact ⟨h, .noFrame hplace (Runtime.inst_mem hlt) ((h.part_eq hself).1 ▸ hcode) _ o⟩

/-- Either the object of an instance is visible, or an error is reported and nothing changed. -/
theorem ensureVisible_cases (self : Instance) (r : Runtime) :
    (∃ e, ensureVisible self r = .error (.eval e) r) ∨ ensureVisible self r = .ok () r ∧
      ∀ o, self.object = some o → r.world.hasVisibleRecord o = true := by
  unfold ensureVisible
  cases hobject : self.object with
  | none => exact .inr ⟨rfl, nofun⟩
  | some o =>
    dsimp only
    rw [bind_of_ok (getRuntime_apply r)]
    cases hvisible : r.world.hasVisibleRecord o with
    | false => exact .inl ⟨_, rfl⟩
    | true =>
      refine .inr ⟨rfl, fun p hp => ?_⟩
      cases hp
      exact hvisible

/-- The class of an instance that was never made has no properties. -/
theorem lt_length_of_property? {i : InstanceId} {name : String} {p : Property}
    (h : (r.inst i).cls.decl.property? name = some p) : i < r.instances.length := by
  by_contra hle
  rw [Runtime.inst, List.getElem?_eq_none (Nat.le_of_not_lt hle)] at h
  cases h

/-- To read a property is safe if calls of accessors are. -/
theorem safe_getProperty (hcalls : calls.Safe) (i : InstanceId) (name : String) :
    Safe (getProperty calls i name) := by
  intro r hr
  unfold getProperty
  rw [bind_of_ok (getRuntime_apply r)]
  dsimp only
  cases hfound : (r.inst i).cls.decl.property? name with
  | none =>
    cases (r.inst i).base with
    | none => exact safe_fail _ r hr
    | some base => exact (hcalls base name).1 r hr
  | some p =>
    dsimp only
    rcases ensureVisible_cases (r.inst i) r with ⟨e, herror⟩ | ⟨hok, hvisible⟩
    · rw [bind_of_error herror]
      exact ⟨.refl hr.tidy, .eval e r⟩
    · rw [bind_of_ok hok]
      have hself := lt_length_of_property? hfound
      have hpremises := premises_safe { self := i, property := some name } hcalls hr hself
        hvisible
      refine Keeps.outcome (Q := anything)
        ((hpremises.run (fun hw => ?_) []).bind fun value _ => ?_) hr.tidy
      · cases hgetter : p.getter with
        | none =>
          rw [hgetter] at hw
          cases hw
        | some accessor =>
          rw [hgetter] at hw
          exact .inr (.getter (List.mem_of_find?_eq_some hfound) hgetter hw)
      · cases value with
        | some value => exact keeps_pure trivial
        | none => exact keeps_fail .eval _

/-- To set a property is safe if calls of accessors are. -/
theorem safe_setProperty (hcalls : calls.Safe) (i : InstanceId) (name : String) (value : Value) :
    Safe (setProperty calls i name value) := by
  intro r hr
  unfold setProperty
  rw [bind_of_ok (getRuntime_apply r)]
  dsimp only
  cases hfound : (r.inst i).cls.decl.property? name with
  | none =>
    cases (r.inst i).base with
    | none => exact safe_fail _ r hr
    | some base => exact (hcalls base name).2 value r hr
  | some p =>
    dsimp only
    split
    · exact ⟨.refl hr.tidy, .eval _ r⟩
    split
    · exact ⟨.refl hr.tidy, .eval _ r⟩
    rw [bind_of_ok (getRuntime_apply r)]
    split
    · exact ⟨.refl hr.tidy, .eval _ r⟩
    next hguard =>
    rcases ensureVisible_cases (r.inst i) r with ⟨e, herror⟩ | ⟨hok, hvisible⟩
    · rw [bind_of_error herror]
      exact ⟨.refl hr.tidy, .eval e r⟩
    · rw [bind_of_ok hok]
      have hself := lt_length_of_property? hfound
      have hpremises := premises_safe { self := i, property := some name } hcalls hr hself
        hvisible
      refine Keeps.outcome (Q := anything) ((hpremises.run (fun hw => ?_) _).bind fun _ _ =>
        keeps_pure trivial) hr.tidy
      -- outside of frames the guard lets only properties without a slot pass
      refine or_iff_not_imp_left.mpr fun hplace => ?_
      have hslot : (r.inst i).cls.slot? p.name = none := by
        have hname : p.name = name := by simpa using List.find?_some hfound
        simpa [hname, not_not.mp hplace] using hguard
      cases hsetter : p.setter with
      | none =>
        rw [hsetter] at hw
        cases hw
      | some accessor =>
        rw [hsetter] at hw
        exact .setter (List.mem_of_find?_eq_some hfound) hslot hsetter hw

/-- By induction on the depth. -/
theorem safe_ofDepth (depth : Nat) : (Calls.ofDepth depth).Safe := by
  induction depth with
  | zero =>
    intro _ _
    exact ⟨fun r hr => ⟨.refl hr.tidy, .exhausted r⟩,
      fun _ r hr => ⟨.refl hr.tidy, .exhausted r⟩⟩
  | succ depth ih => exact fun i name => ⟨safe_getProperty ih i name, safe_setProperty ih i name⟩

/-- To read a property from outside is safe. -/
theorem safe_readProperty (i : InstanceId) (name : String) : Safe (readProperty i name) :=
  safe_getProperty (safe_ofDepth callDepth) i name

/-- To set a property from outside is safe. -/
theorem safe_writeProperty (i : InstanceId) (name : String) (value : Value) :
    Safe (writeProperty i name value) :=
  safe_setProperty (safe_ofDepth callDepth) i name value

/-- To read all properties from outside is safe. -/
theorem safe_readProperties (i : InstanceId) : Safe (readProperties i) :=
  safe_runtime.bind fun _ => (safe_mapM (fun name =>
    ((safe_ofDepth callDepth i name).1).bind fun value => safe_pure (name, value)) _).bind fun _ =>
      safe_pure _

/-! ## Making instances -/

/-- What is left of the first block is of the block. -/
theorem chainBlock?_subset {c : ClassDecl} {rest : List Stmt} (h : chainBlock? c = some rest) :
    rest ++ c.initializers.tail.flatten ⊆ c.initializers.flatten := by
  unfold chainBlock? at h
  cases hblocks : c.initializers with
  | nil => rw [hblocks] at h; cases h
  | cons block blocks =>
    rw [hblocks, List.head?_cons] at h
    split at h
    · next hblock =>
      cases h
      cases hblock
      exact List.subset_cons_self ..
    · cases h

/-- To furnish a part is accounted for, if its object is visible and its code is that of its class.
-/
theorem outcome_furnishPart (hcalls : calls.Safe) (hr : r.world.AtWork) {part : Part}
    (hpart : part.Loaded (r.table 0)) (base : Option InstanceId) {object : Option ObjectId}
    (hobject : ∀ o, object = some o → r.world.hasVisibleRecord o = true) {body : List Stmt}
    (hbody : body ⊆ part.1.decl.initializers.flatten) :
    Outcome r (furnishPart calls part base object body r) := by
  unfold furnishPart
  cases storedValues part.1 part.locals with
  | error e => exact ⟨.refl hr.tidy, .eval e r⟩
  | ok fields =>
    let made : Instance := { cls := part.1, object, fields, base }
    let later : Runtime := { r with instances := r.instances ++ [made] }
    have hlater : later.Continues r := by
      refine ⟨.refl hr.tidy, rfl, by simp [later], fun new hnew => ?_⟩
      rcases List.mem_append.mp hnew with hold | hmade
      · exact .inl ⟨new, hold, rfl⟩
      · obtain ⟨i, hi⟩ := hpart
        rw [List.mem_singleton.mp hmade]
        exact .inr ⟨_, List.getElem_mem i.isLt, hi⟩
    have hinst : later.inst r.instances.length = made := by simp [later, Runtime.inst]
    have hpremises := premises_safe (r := later) { self := r.instances.length, property := none }
      hcalls hr (by simp [later]) (by rw [hinst]; exact hobject)
    refine Outcome.trans hlater (Keeps.outcome (Q := anything) ((hpremises.runAll (fun hw => ?_)
      part.locals).bind fun _ _ => keeps_pure trivial) hr.tidy)
    obtain ⟨stmt, hstmt, hwrites⟩ := List.any_eq_true.mp hw
    rw [hinst]
    refine .inr (.making (List.any_eq_true.mpr ⟨stmt, ?_, hwrites⟩))
    rw [List.mem_append] at hstmt ⊢
    exact hstmt.imp_left (hbody ·)

/-- To complete a part is accounted for, since its object is visible where it was made. -/
theorem outcome_completePart (hcalls : calls.Safe) (hr : r.world.AtWork) {part : Part}
    (hpart : part.Loaded (r.table 0)) (base : Option InstanceId) :
    Outcome r (completePart calls 0 part base r) := by
  cases hframed : part.1.isFramed with
  | false =>
    rw [completePart, hframed]
    exact outcome_furnishPart hcalls hr hpart base (fun _ ho => by cases ho) (List.Subset.refl _)
  | true =>
    rw [completePart, hframed]
    cases hchain : chainBlock? part.1.decl with
    | none => exact ⟨.refl hr.tidy, .eval _ r⟩
    | some rest =>
      let w := (r.world.newObject 0 part.1.decl.name Slots.merge part.1.freshRecord).2
      obtain ⟨hw, hvisible⟩ := hr.newObject part.1.decl.name Slots.merge part.1.freshRecord
      have hmade : (modifyGetThe (Store.World Slots) fun w =>
          w.newObject 0 part.1.decl.name Slots.merge part.1.freshRecord : EvalM ObjectId) r =
          .ok r.world.objects.length { r with world := w } := by
        rw [← Store.World.newObject_fst r.world part.1.decl.name Slots.merge part.1.freshRecord]
        rfl
      have hfurnish := outcome_furnishPart hcalls (hr.continues hw)
        (r := { r with world := w }) hpart base (fun o ho => Option.some.inj ho ▸ hvisible)
        (chainBlock?_subset hchain)
      change Outcome r ((modifyGetThe (Store.World Slots) _ >>= _ : EvalM InstanceId) r)
      rw [bind_of_ok hmade]
      exact Outcome.trans (.of_world hw) hfurnish

/-- By induction on the depth: the part of the superclass is made before the rest. -/
theorem outcome_construct (hcalls : calls.Safe) (depth : Nat) (hr : r.world.AtWork) {part : Part}
    (hpart : part.Loaded (r.table 0)) : Outcome r (construct calls 0 depth part.1 part.2 r) := by
  induction depth generalizing part with
  | zero => exact ⟨.refl hr.tidy, .exhausted r⟩
  | succ depth ih =>
    cases hsuper : part.super? (r.table 0) with
    | none =>
      rcases construct_of_super?_none calls hsuper with ⟨e, he⟩ | hcomplete
      · rw [he depth]
        exact ⟨.refl hr.tidy, .eval e r⟩
      · rw [hcomplete depth]
        exact outcome_completePart hcalls hr hpart none
    | some base =>
      rw [construct_of_super? hsuper depth]
      refine (ih (Part.loaded_of_super? hsuper)).bind fun i later hlater => ?_
      have htable : later.table 0 = r.table 0 := by
        rw [Runtime.table, hlater.tables, ← Runtime.table]
      exact outcome_completePart hcalls (hr.continues hlater.world) (htable ▸ hpart) (some i)

/-- To make an instance is safe. -/
theorem safe_makeInstance (name : String) (args : List Value) :
    Safe (makeInstance 0 name args) := by
  intro r hr
  unfold makeInstance instantiate
  rw [bind_of_ok (getRuntime_apply r), bind_of_ok (getRuntime_apply r)]
  cases hfound : (r.table 0).get? name with
  | none => exact ⟨.refl hr.tidy, .eval _ r⟩
  | some c =>
    have hpart : Part.Loaded (r.table 0) (c, args) := Part.loaded_of_get? hfound
    exact outcome_construct (safe_ofDepth callDepth) _ hr hpart

end

end VersionedObjects.Dynamic
