import VersionedObjects.Proofs.Dynamic.EnclosedCode
import VersionedObjects.Proofs.Dynamic.Instances
import VersionedObjects.Proofs.Dynamic.Instantiation
import VersionedObjects.Proofs.Store.MadeObjects

/-!
# Parts made one after the other

The parts of an instance are made from the top of the line of superclasses down. The code of a part
reaches its own object and those of the parts before it, and nothing that was there before the
instance. Main statement: `leads_completePart`, for a part that is made after others, whether it
fails or not.
-/

namespace VersionedObjects

namespace Dynamic

open Declaration
open Store (ManagerId ObjectId World)

/-! ## Parts with objects -/

namespace Part

/-- The part has an object: its class is framed and starts with its record chain. -/
def hasChain (part : Part) : Bool :=
  part.1.isFramed && (chainBlock? part.1.decl).isSome

/-- The code that runs after the object of the part was made announces it. -/
def announces (part : Part) : Bool :=
  ((chainBlock? part.1.decl).getD [] ++ part.1.decl.initializers.tail.flatten ++
    part.1.constructor.body).any (·.announces)

/-- The parts that have objects, with these, if the first of them is the given one. -/
def objects (first : ObjectId) (parts : List Part) : List (Part × ObjectId) :=
  (parts.filter hasChain).zipIdx first

/-- The objects that the parts announce. -/
def announced (first : ObjectId) (parts : List Part) : List ObjectId :=
  ((objects first parts).filter (·.1.announces)).map (·.2)

variable {first : ObjectId} {parts : List Part} {part : Part}

/-- One more part with an object is announced after the others, if it announces itself. -/
theorem announced_concat (h : part.hasChain = true) : announced first (parts ++ [part]) =
    announced first parts ++ if part.announces then [first + parts.countP hasChain] else [] := by
  rw [announced, objects, List.filter_append, List.filter_singleton, h, List.zipIdx_append,
    List.countP_eq_length_filter, List.filter_append, List.map_append]
  cases hannounces : part.announces <;> simp [announced, objects, hannounces]

/-- A part without an object is not announced. -/
theorem announced_concat_of_not (h : part.hasChain = false) :
    announced first (parts ++ [part]) = announced first parts := by
  simp [announced, objects, h]

end Part

/-! ## Runtimes in which an instance is being made -/

/-- A runtime that another one came to by making parts of one instance. The parts refer to each
other and to objects that were made with them, and to nothing that was there before. -/
structure Runtime.Builds (later r : Runtime) (m : ManagerId) (count : Nat)
    (told : List ObjectId) : Prop where
  world : later.world.Makes r.world m count told
  length_instances : r.instances.length ≤ later.instances.length
  object : ∀ i, r.instances.length ≤ i → ∀ o, (later.inst i).object = some o →
    r.world.objects.length ≤ o ∧ o < later.world.objects.length
  base : ∀ i, r.instances.length ≤ i → ∀ b, (later.inst i).base = some b →
    r.instances.length ≤ b

/-- To change the fields of an instance changes neither its object nor its base. -/
theorem inst_modifyFields (r : Runtime) (i j : InstanceId)
    (f : Association Value → Association Value) :
    ((r.modifyFields i f).inst j).object = (r.inst j).object ∧
      ((r.modifyFields i f).inst j).base = (r.inst j).base := by
  have hskeleton := skeleton_inst_congr (skeletons_modifyFields r i f) j
  have hobject := congrArg Instance.object hskeleton
  have hbase := congrArg Instance.base hskeleton
  exact ⟨hobject, hbase⟩

namespace Runtime.Builds

variable {r later : Runtime} {m : ManagerId} {count : Nat} {told more : List ObjectId}
  {w : World Slots} {i : InstanceId} {o : ObjectId}

/-- At the start nothing is built. -/
theorem refl (r : Runtime) (m : ManagerId) : r.Builds r m 0 [] where
  world := .refl r.world m
  length_instances := Nat.le_refl _
  object i hi o ho := by
    rw [inst, List.getElem?_eq_none hi] at ho
    cases ho
  base i hi b hb := by
    rw [inst, List.getElem?_eq_none hi] at hb
    cases hb

/-- What is made in the world after parts were built is built. -/
theorem of_world (h : later.Builds r m count told) {next : Nat}
    (hw : w.Makes r.world m next more) (hle : count ≤ next := by omega) :
    Builds { later with world := w } r m next more := by
  refine ⟨hw, h.length_instances, fun i hi o ho => ?_, h.base⟩
  have hlength : later.world.objects.length ≤ w.objects.length := by
    rw [hw.length_objects, h.world.length_objects]
    exact Nat.add_le_add_left hle _
  exact (h.object i hi o ho).imp_right fun hlt => Nat.lt_of_lt_of_le hlt hlength

/-- Fewer objects may be asked to have been announced. -/
theorem mono (h : later.Builds r m count told) (hsubset : more ⊆ told) :
    later.Builds r m count more :=
  { h with world := h.world.mono hsubset }

/-- One more part, and with it an object or not. -/
theorem addPart (h : later.Builds r m count told) (cls : LoadedClass)
    (fields : Association Value) {base : Option InstanceId} {object : Option ObjectId}
    (hbase : ∀ b, base = some b → r.instances.length ≤ b)
    (hobject : ∀ o, object = some o →
      r.world.objects.length ≤ o ∧ o < later.world.objects.length) :
    Builds { later with instances := later.instances ++ [{ cls, object, fields, base }] }
      r m count told := by
  have hinst (i : InstanceId) := inst_append later later.world { cls, object, fields, base } i
  refine ⟨h.world, ?_, fun i hi o ho => ?_, fun i hi b hb => ?_⟩
  · rw [List.length_append]
    exact Nat.le_add_right_of_le h.length_instances
  · rw [hinst] at ho
    split at ho
    · exact hobject o ho
    · exact h.object i hi o ho
  · rw [hinst] at hb
    split at hb
    · exact hbase b hb
    · exact h.base i hi b hb

end Runtime.Builds

/-! ## The code of a part -/

section

variable {r later : Runtime} {m : ManagerId} {count : Nat} {told : List ObjectId}
  {j : InstanceId} {object : Option ObjectId}

/-- A runtime in which the parts of an instance are being made, and a part with its object. -/
def Runtime.BuildsPart (later r : Runtime) (m : ManagerId) (count : Nat) (told : List ObjectId)
    (j : InstanceId) (object : Option ObjectId) : Prop :=
  later.Builds r m count told ∧ (later.inst j).object = object

/-- The code of the parts reaches the objects that were made. -/
theorem enclosed_buildsPart (r : Runtime) (m : ManagerId) (count : Nat) (told : List ObjectId)
    (j : InstanceId) (object : Option ObjectId) :
    Enclosed (·.BuildsPart r m count told j object) r.instances.length
      fun o => r.world.objects.length ≤ o ∧ o < r.world.objects.length + count where
  base _ h := h.1.base
  object _ h i hi o ho := h.1.world.length_objects ▸ h.1.object i hi o ho
  setField later i name value h := by
    have hinst (k : InstanceId) := inst_modifyFields later i k (·.put name value)
    refine ⟨⟨h.1.world, ?_, fun k hk o ho => ?_, fun k hk b hb => ?_⟩, (hinst j).1.trans h.2⟩
    · rw [Runtime.modifyFields, List.length_modify]
      exact h.1.length_instances
    · exact h.1.object k hk o ((hinst k).1 ▸ ho)
    · exact h.1.base k hk b ((hinst k).2 ▸ hb)
  announce later o h ho := by
    have hlt : o < later.world.objects.length := h.1.world.length_objects.symm ▸ ho.2
    exact ⟨h.1.of_world ((h.1.world.announce ho.1 hlt).mono (List.subset_cons_self ..)), h.2⟩
  store later o g change h := ⟨h.1.of_world (h.1.world.store o g change), h.2⟩
  readable later o h _ := ⟨h.1.of_world (h.1.world.readable o), h.2⟩
  writable later o h ho := by
    have hlt : o < later.world.objects.length := h.1.world.length_objects.symm ▸ ho.2
    exact ⟨h.1.of_world (h.1.world.writable ho.1 hlt), h.2⟩

/-- Whatever becomes of the code. -/
theorem leads_runAll {d : Nat} (hj : r.instances.length ≤ j) (body : List Stmt)
    (locals : Association Value) (h : later.BuildsPart r m count told j object) :
    Leads (fun _ latest => latest.Builds r m count told) (·.Builds r m count told)
      (runAll (.ofDepth d) { self := j, property := none } locals body later) :=
  (((enclosed_buildsPart r m count told j object).runAll hj d locals body).leads h).mono
    (fun _ _ hlatest => hlatest.1) fun _ hlatest => hlatest.1

/-- Statements that announce the object do so unless an earlier one fails. -/
theorem leads_runAll_told {d : Nat} {o : ObjectId} (hj : r.instances.length ≤ j) {body : List Stmt}
    (hbody : body.any (·.announces) = true) (locals : Association Value)
    (h : later.BuildsPart r m count told j (some o)) :
    Leads (fun _ latest => latest.Builds r m count (o :: told)) (·.Builds r m count told)
      (runAll (.ofDepth d) { self := j, property := none } locals body later) := by
  refine ((enclosed_buildsPart r m count told j (some o)).runAll_announces
    (enclosed_buildsPart r m count (o :: told) j (some o)) hj (fun _ hs => hs.2)
    (fun s hs => ?_) d hbody locals h).mono (fun _ _ hlatest => hlatest.1) fun latest hlatest => ?_
  · obtain ⟨hle, hlt⟩ := hs.1.object j hj o hs.2
    exact ⟨hs.1.of_world (hs.1.world.announce hle hlt), hs.2⟩
  · rcases hlatest with hlatest | hlatest
    · exact hlatest.1
    · exact hlatest.1.mono (List.subset_cons_self ..)

/-! ## Making the parts -/

/-- To furnish a part leads to a runtime in which it is built, or to one in which its object was
made and perhaps announced. -/
theorem leads_furnishPart {d : Nat} {part : Part} {base : Option InstanceId} {body : List Stmt}
    {more : List ObjectId} (h : later.Builds r m count told)
    (hbase : ∀ b, base = some b → r.instances.length ≤ b)
    (hobject : ∀ o, object = some o →
      r.world.objects.length ≤ o ∧ o < later.world.objects.length)
    (hrun : ∀ j s, r.instances.length ≤ j → s.BuildsPart r m count told j object →
      Leads (fun _ latest => latest.Builds r m count more) (·.Builds r m count told)
        (runAll (.ofDepth d) { self := j, property := none } part.locals
          (body ++ part.1.constructor.body) s)) :
    Leads (fun i latest => r.instances.length ≤ i ∧ latest.Builds r m count more)
      (·.Builds r m count told) (furnishPart (.ofDepth d) part base object body later) := by
  unfold furnishPart
  cases storedValues part.1 part.locals with
  | error e => exact h
  | ok fields =>
    have hadded := h.addPart part.1 fields hbase hobject
    have hinst := inst_append later later.world { cls := part.1, object, fields, base }
      later.instances.length
    rw [if_pos rfl] at hinst
    exact (hrun _ _ h.length_instances ⟨hadded, by rw [hinst]⟩).bind (fun _ => id)
      fun _ latest hlatest => ⟨h.length_instances, hlatest⟩

/-- A part is given the next object. -/
theorem newObject_apply (later : Runtime) (m : ManagerId) (c : LoadedClass) :
    (modifyGetThe (World Slots) fun w =>
        w.newObject m c.decl.name Slots.merge c.freshRecord : EvalM ObjectId) later =
      .ok later.world.objects.length { later with
        world := (later.world.newObject m c.decl.name Slots.merge c.freshRecord).2 } := by
  have hnew : (later.world.newObject m c.decl.name Slots.merge c.freshRecord).1 =
      later.world.objects.length := (World.newObject_spec ..).1
  rw [← hnew]
  rfl

/-- The object is made before anything of the part can fail. -/
theorem leads_completePart_of_chain (hr : r.world.Orderly) (h : later.Builds r m count told)
    {part : Part} (hframed : part.1.isFramed = true) {rest : List Stmt}
    (hchain : chainBlock? part.1.decl = some rest) {base : Option InstanceId}
    (hbase : ∀ b, base = some b → r.instances.length ≤ b) (d : Nat) :
    Leads
      (fun i latest => r.instances.length ≤ i ∧ latest.Builds r m (count + 1)
        (told ++ if part.announces then [r.world.objects.length + count] else []))
      (·.Builds r m (count + 1) told) (completePart (.ofDepth d) m part base later) := by
  have hannounces : part.announces = ((rest ++ part.1.decl.initializers.tail.flatten) ++
      part.1.constructor.body).any (·.announces) := by
    rw [Part.announces, hchain]
    rfl
  have hmade := h.of_world
    (h.world.newObject hr part.1.decl.name Slots.merge part.1.freshRecord) (Nat.le_succ count)
  have ho : later.world.objects.length = r.world.objects.length + count := h.world.length_objects
  rw [completePart, hframed, hchain]
  change Leads _ _ ((modifyGetThe (World Slots) _ >>= _ : EvalM InstanceId) later)
  rw [bind_of_ok (newObject_apply later m part.1), ho]
  refine leads_furnishPart hmade hbase (fun p hp => ?_) fun j s hj hs => ?_
  · obtain rfl := Option.some.inj hp
    rw [hmade.world.length_objects]
    exact ⟨Nat.le_add_right _ _, Nat.lt_succ_self _⟩
  cases hsome : part.announces with
  | false =>
    rw [if_neg Bool.false_ne_true, List.append_nil]
    exact leads_runAll hj _ _ hs
  | true =>
    refine (leads_runAll_told hj (hannounces ▸ hsome) _ hs).mono (fun _ _ hlatest => ?_)
      fun _ => id
    refine hlatest.mono fun p hp => ?_
    rw [if_pos rfl, List.mem_append, List.mem_singleton] at hp
    exact List.mem_cons.mpr hp.symm

/-- A part is made after those before it. -/
theorem leads_completePart (hr : r.world.Orderly) {before : List Part}
    (h : later.Builds r m (before.countP Part.hasChain)
      (Part.announced r.world.objects.length before))
    (part : Part) {base : Option InstanceId}
    (hbase : ∀ b, base = some b → r.instances.length ≤ b) (d : Nat) :
    Leads
      (fun i latest => r.instances.length ≤ i ∧
        latest.Builds r m ((before ++ [part]).countP Part.hasChain)
          (Part.announced r.world.objects.length (before ++ [part])))
      (·.Builds r m ((before ++ [part]).countP Part.hasChain)
        (Part.announced r.world.objects.length before))
      (completePart (.ofDepth d) m part base later) := by
  rw [List.countP_append, List.countP_singleton]
  cases hframed : part.1.isFramed with
  | false =>
    have hpart : part.hasChain = false := by rw [Part.hasChain, hframed, Bool.false_and]
    rw [Part.announced_concat_of_not hpart, hpart, if_neg Bool.false_ne_true, completePart,
      hframed]
    exact leads_furnishPart h hbase nofun fun j s hj hs => leads_runAll hj _ _ hs
  | true =>
    cases hchain : chainBlock? part.1.decl with
    | none =>
      have hpart : part.hasChain = false := by rw [Part.hasChain, hchain, Bool.and_comm]; rfl
      rw [hpart, if_neg Bool.false_ne_true, completePart, hframed, hchain]
      exact h
    | some rest =>
      have hpart : part.hasChain = true := by rw [Part.hasChain, hframed, hchain]; rfl
      rw [hpart, if_pos rfl, Part.announced_concat hpart]
      exact leads_completePart_of_chain hr h hframed hchain hbase d

end

end Dynamic

end VersionedObjects
