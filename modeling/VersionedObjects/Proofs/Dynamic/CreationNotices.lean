import VersionedObjects.Proofs.Dynamic.HeraldingClasses

/-!
# One notice for each framed part

A program makes managers, loads texts, makes, reads and writes instances, and uses the store
directly, in any order and whether its operations succeed or fail. Whatever it does, each framed
part of an instance that it makes is announced once: while the instance is made, base parts first,
with the name of its class and the generation of its first record. Main statement:
`one_notice_per_framed_part`.
-/

namespace VersionedObjects.Dynamic

open Declaration
open Store (FrameId ManagerId ObjectId Generation World)

/-! ## Programs -/

/-- An operation of a program. -/
inductive Step where
  | addManager (config : Store.Config)
  | load (m : ManagerId) (source : String)
  | make (m : ManagerId) (name : String) (args : List Value)
  | read (i : InstanceId) (property : String)
  | readAll (i : InstanceId)
  | write (i : InstanceId) (property : String) (value : Value)
  /-- A call of the store: among these are those that announce an object again. -/
  | call (m : ManagerId) (call : Store.Call Slots)

namespace Runtime

/-- The runtime after an operation of a program. -/
def take (r : Runtime) : Step → Runtime
  | .addManager config => r.addManager config
  | .load m source => (r.loadSource m source).2
  | .make m name args => stateAfter (makeInstance m name args) r
  | .read i property => stateAfter (readProperty i property) r
  | .readAll i => stateAfter (readProperties i) r
  | .write i property value => stateAfter (writeProperty i property value) r
  | .call m call => { r with world := (r.world.performBy m call).2 }

/-- The runtime after the operations of a program. -/
def takeAll (r : Runtime) (steps : List Step) : Runtime :=
  steps.foldl take r

/-- What holds of a runtime that a program comes to. -/
structure Sound (r : Runtime) : Prop where
  started : r.world.Later {}
  orderly : r.world.Orderly
  managers : r.tables.length ≤ r.world.managers.length
  heralds : r.Heralds
  objects : ∀ part ∈ r.skeletons, ∀ o, part.object = some o → o < r.world.objects.length

end Runtime

section

variable {α : Type} {r later : Runtime}

namespace Runtime.Sound

/-- A runtime in which nothing was done is sound. -/
theorem empty : ({} : Runtime).Sound where
  started := .refl _
  orderly := World.orderly_empty
  managers := Nat.le_refl _
  heralds := List.forall_mem_nil _
  objects := List.forall_mem_nil _

/-- Whatever follows a sound runtime is sound. -/
theorem follows (h : r.Sound) (hlater : later.Follows r) : later.Sound where
  started := h.started.trans hlater.world
  orderly := hlater.orderly
  managers := by
    rw [hlater.tables]
    exact Nat.le_trans h.managers hlater.world.length_managers
  heralds := by
    unfold Runtime.Heralds
    rw [hlater.tables]
    exact h.heralds
  objects := by
    obtain ⟨more, hmore, hobjects⟩ := hlater.skeletons
    rw [hmore]
    refine List.forall_mem_append.mpr ⟨fun part hpart o ho => ?_, hobjects⟩
    exact Nat.lt_of_lt_of_le (h.objects part hpart o ho) hlater.world.length_objects

/-- A manager whose classes are loaded is there. -/
theorem lt_length (h : r.Sound) {m : ManagerId} {name : String} {c : LoadedClass}
    (hfound : (r.table m).get? name = some c) : m < r.world.managers.length := by
  refine Nat.lt_of_lt_of_le ?_ h.managers
  by_contra hlt
  rw [Runtime.table, List.getElem?_eq_none (Nat.le_of_not_lt hlt)] at hfound
  cases hfound

/-- Code of any instance reaches objects that are there. -/
theorem enclosed (h : r.Sound) : Enclosed
    (·.At (fun v => v.Later r.world ∧ v.Orderly) r) 0
    fun o => 0 ≤ o ∧ o < r.world.objects.length := by
  have hencloses : r.Encloses 0 0 r.world.objects.length := by
    refine ⟨fun _ _ _ _ => Nat.zero_le _, fun i _ o ho => ⟨Nat.zero_le _, ?_⟩⟩
    have hskeleton := congrArg Instance.object (skeleton_inst r i)
    replace ho := hskeleton.symm.trans ho
    cases hpart : r.skeletons[i]? with
    | none => rw [hpart] at ho; cases ho
    | some part =>
      rw [hpart] at ho
      exact h.objects part (List.mem_of_getElem? hpart) o ho
  exact hencloses.enclosed_at (tended_later r.world)

/-- What preserves the instances and keeps the world going. -/
theorem follows_of_preserves (h : r.Sound) {x : EvalM α}
    (hx : Preserves (·.At (fun v => v.Later r.world ∧ v.Orderly) r) x) :
    (stateAfter x r).Follows r := by
  have hat := (hx.leads ⟨⟨.refl _, h.orderly⟩, rfl, rfl⟩).stateAfter
  exact ⟨hat.world.1, hat.world.2, hat.tables, [], by rw [hat.skeletons, List.append_nil],
    List.forall_mem_nil _⟩

/-- An instance is made, or not. -/
theorem leads_makeInstance (h : r.Sound) (m : ManagerId) (name : String) (args : List Value) :
    Leads
      (fun i later => ∃ c, (r.table m).get? name = some c ∧
        let parts := Part.line (r.table m) ((r.table m).length + 1) (c, args)
        r.lastPart parts = some i ∧ ∃ made,
          made.map (·.2) = Part.stamps .standard m r ((r.table m).length + 1) (c, args) ∧
            later.Stages r m parts made made.length)
      (·.Follows r) (makeInstance m name args r) := by
  unfold makeInstance instantiate
  rw [bind_of_ok (getRuntime_apply r), bind_of_ok (getRuntime_apply r)]
  cases hfound : (r.table m).get? name with
  | none => exact .refl h.orderly
  | some c =>
    have hloaded : Part.Loaded (r.table m) (c, args) := Part.loaded_of_get? hfound
    obtain ⟨k, hk⟩ := hloaded
    have hheralds : c.Heralds := by
      change _ = c at hk
      rw [← hk]
      exact h.heralds.table m _ (List.getElem_mem k.isLt)
    exact (leads_construct_announced h.orderly h.started (h.lt_length hfound)
      (h.heralds.table m) callDepth _ (c, args) hheralds).mono
        (fun i later hlater => ⟨c, rfl, hlater⟩) fun _ => id

/-- One operation of a program. -/
theorem take (h : r.Sound) (step : Step) :
    (r.take step).Sound ∧ (r.take step).world.Later r.world := by
  have hfollows {later : Runtime} (hlater : later.Follows r) :
      later.Sound ∧ later.world.Later r.world := ⟨h.follows hlater, hlater.world⟩
  have hpreserve := h.enclosed.preserve_ofDepth (callDepth + 1)
  cases step with
  | addManager config =>
    have hlater : World.Later (r.world.addManager config) r.world := .addManager _ config
    refine ⟨⟨h.started.trans hlater, World.orderly_serve h.orderly (.addManager config), ?_,
      fun table htable => ?_, h.objects⟩, hlater⟩
    · simpa [Runtime.take, Runtime.addManager, World.addManager] using h.managers
    · rcases List.mem_append.mp htable with hold | hnew
      · exact h.heralds table hold
      · rw [List.mem_singleton.mp hnew]
        exact List.forall_mem_nil _
  | load m source =>
    obtain ⟨hheralds, hworld, hinstances, htables⟩ := heralds_loadSource h.heralds m source
    rw [Runtime.take]
    refine ⟨⟨hworld ▸ h.started, hworld ▸ h.orderly, ?_, hheralds, ?_⟩, hworld ▸ .refl _⟩
    · rw [htables, hworld]
      exact h.managers
    · rw [Runtime.skeletons, hinstances, hworld]
      exact h.objects
  | make m name args =>
    refine hfollows (Leads.stateAfter ((h.leads_makeInstance m name args).mono
      (fun i later hlater => ?_) fun _ => id))
    obtain ⟨c, -, -, made, -, hstages⟩ := hlater
    exact hstages.follows
  | read i property =>
    exact hfollows (h.follows_of_preserves (hpreserve i (Nat.zero_le i) property).1)
  | readAll i => exact hfollows (h.follows_of_preserves (h.enclosed.readProperties i))
  | write i property value =>
    exact hfollows (h.follows_of_preserves ((hpreserve i (Nat.zero_le i) property).2 value))
  | call m call =>
    have hlater : World.Later (r.world.performBy m call).2 r.world :=
      World.later_serve r.world (.call m call)
    exact hfollows ⟨hlater, World.orderly_performBy h.orderly m call, rfl, [],
      (List.append_nil _).symm, List.forall_mem_nil _⟩

/-- By induction on the operations. -/
theorem takeAll (h : r.Sound) (steps : List Step) :
    (r.takeAll steps).Sound ∧ (r.takeAll steps).world.Later r.world := by
  induction steps generalizing r with
  | nil => exact ⟨h, .refl _⟩
  | cons step rest ih =>
    obtain ⟨hnext, hlater⟩ := h.take step
    obtain ⟨hlast, hlatest⟩ := ih hnext
    exact ⟨hlast, hlater.trans hlatest⟩

end Runtime.Sound

end

/-! ## Notices -/

/-- **One notice for each framed part.** Whatever a program did before, an instance that it makes
has a part for each class on its line of superclasses, and each framed part has an object of its
own. While the instance is made observers are told of these objects and of no others, in the order
of the parts, with the names of their classes and the generations of their first records. A part is
made in the generation of the open writable frame of the manager that is entered, if there is one
when the parts before it are complete, and otherwise in a new one from the clock, which every frame
that is opened later sees; when the frame is closed on the way, no other one takes its place.
Whatever the program does afterwards, over its whole run observers are told of each of these objects
once. -/
theorem one_notice_per_framed_part (before : List Step) {m : ManagerId} {name : String}
    {args : List Value} {i : InstanceId} {later : Runtime}
    (h : makeInstance m name args (({} : Runtime).takeAll before) = .ok i later) :
    let r := ({} : Runtime).takeAll before
    let first := r.world.objects.length
    ∃ c made entered minted, (r.table m).get? name = some c ∧
      let line := Part.line (r.table m) ((r.table m).length + 1) (c, args)
      (parts later i).reverse.map (fun j => ((later.inst j).cls, (later.inst j).object)) =
        Part.seats first line ∧
      made.map (·.1) = Part.framedNames line ∧ made.map (·.2) = entered ++ minted ∧
      entered ++ minted = Part.stamps .standard m r ((r.table m).length + 1) (c, args) ∧
      (∀ k (hk : k < made.length),
        (later.world.object (first + k)).chain.generations = [made[k].2]) ∧
      (∃ events, later.world.log = r.world.log ++ events ∧
        events.filter (·.created?.isSome) = World.announcements m first made) ∧
      (∀ g ∈ entered, ∃ f, r.world.makingFrame? m = some f ∧ (r.world.frame f).generation = g) ∧
      (∀ g ∈ minted, (r.world.manager m).next ≤ g) ∧ minted.Pairwise (· < ·) ∧
      ((r.world.makingFrame? m).isSome = true → minted ≠ [] → entered ≠ []) ∧
      ((later.world.makingFrame? m).isSome = true → minted = []) ∧
      ∀ after, let v := (later.takeAll after).world
        (∀ k < made.length, Store.creations v.log (first + k) = 1) ∧
        ∀ g ∈ minted, ∀ f, later.world.frames.length ≤ f → f < v.frames.length →
          (v.frame f).manager = m → (v.frame f).view.canSee g = true := by
  intro r first
  have hr : r.Sound := (Runtime.Sound.empty.takeAll before).1
  have hmade := hr.leads_makeInstance m name args
  rw [h] at hmade
  obtain ⟨c, hfound, hi, made, hmade, hstages⟩ := hmade
  obtain ⟨entered, minted, hgenerations, hstamps⟩ := hstages.world.stamps
  obtain ⟨told, hleast, htold, -, hannounced, events, hlog, hcreated⟩ := hstages.world.told
  obtain rfl : told = made.length := Nat.le_antisymm htold hleast
  rw [List.take_of_length_le (Nat.le_of_eq (World.length_announcements ..))] at hcreated
  refine ⟨c, made, entered, minted, hfound, hstages.parts_eq hi, hstages.names, hgenerations,
    hgenerations.symm.trans hmade,
    fun k hk => (hstages.world.object k hk).2.generations, ⟨events, hlog, hcreated⟩,
    hstamps.of_entered, fun g hg => (hstamps.of_minted g hg).1, hstamps.ascending, hstamps.first,
    hstamps.closed, fun after => ?_⟩
  obtain ⟨hlast, hlater⟩ := (hr.follows hstages.follows).takeAll after
  refine ⟨fun k hk => ?_, fun g hg f hle hlt hmanager => ?_⟩
  · have hknown : (later.world.object (first + k)).announced = true := by
      rw [hannounced k hk, decide_eq_true hk]
    rw [hlast.started.creations_eq, hlater.announced hknown]
    rfl
  · obtain ⟨-, htaken, hclosed⟩ := hstamps.of_minted g hg
    exact hlater.canSee htaken hclosed hlt hle hmanager

/-- A framed class, one that inherits from it and has nothing to frame, and a framed class that
inherits from that one. -/
def layeredSource : String :=
  "@Framed class Base \x7b var a: Int = 1 \x7d class Middle : Base \x7b \x7d " ++
    "@Framed class Leaf : Middle \x7b var b: Int = 2 \x7d"

/-- What the text declares. -/
def layered : Module where
  classes := [
    { name := "Base"
      annotations := ["Framed"]
      properties := [
        { name := "a"
          type := .named "Int"
          mutable := true
          initializer := some (.literal (.int 1)) }] },
    { name := "Middle"
      supertypes := [.named "Base"] },
    { name := "Leaf"
      annotations := ["Framed"]
      supertypes := [.named "Middle"]
      properties := [
        { name := "b"
          type := .named "Int"
          mutable := true
          initializer := some (.literal (.int 2)) }] }]

/-- A frame is opened and entered, and the classes are loaded. -/
def layeredSteps : List Step :=
  [.addManager {}, .call 0 (.openFrame {}), .call 0 (.enter 0)] ++ [.load 0 layeredSource]

/-- How many objects there are when an instance of the last class is to be made, what observers were
told by then, and of how many objects they are told by the time when it is made. -/
def layeredNotices : Option (Nat × List Store.Event × Nat) :=
  let r := ({} : Runtime).takeAll layeredSteps
  match makeInstance 0 "Leaf" [] r with
  | .ok _ later =>
    some (r.world.objects.length, r.world.log, later.world.log.countP (·.created?.isSome))
  | .error _ _ => none

/-- The run on the layered classes ends with two parts and no notice yet. -/
theorem layeredNotices_eq : layeredNotices = some (0, [], 2) := by
  have hparse : Grammar.parseModule layeredSource = .ok layered := by decide +kernel
  have hsteps : ({} : Runtime).takeAll layeredSteps =
      ((({} : Runtime).takeAll
        [.addManager {}, .call 0 (.openFrame {}), .call 0 (.enter 0)]).loadModule 0 layered).2 := by
    rw [layeredSteps, Runtime.takeAll, List.foldl_append, List.foldl_cons, List.foldl_nil,
      Runtime.take, Runtime.loadSource, hparse, Runtime.takeAll]
  rw [layeredNotices, hsteps, Runtime.loadModule, Framing.Pipeline.standard_eq]
  decide +kernel

/-- Two framed parts, one above the other, are each told once, whatever is done afterwards. -/
theorem one_notice_per_framed_part_layered :
    ∃ i later, makeInstance 0 "Leaf" [] (({} : Runtime).takeAll layeredSteps) = .ok i later ∧
      ∀ after, Store.creations (later.takeAll after).world.log 0 = 1 ∧
        Store.creations (later.takeAll after).world.log 1 = 1 := by
  have hnotices := layeredNotices_eq
  unfold layeredNotices at hnotices
  dsimp only at hnotices
  split at hnotices
  · next i later hmade =>
    obtain ⟨hnone, hnotices⟩ := Prod.mk.inj (Option.some.inj hnotices)
    obtain ⟨hbefore, hcount⟩ := Prod.mk.inj hnotices
    obtain ⟨c, made, _, minted, -, -, -, -, -, -, ⟨events, hlog, htold⟩, -, -, -, -, -, honce⟩ :=
      one_notice_per_framed_part layeredSteps hmade
    have hlength : made.length = 2 := by
      rw [← World.length_announcements 0 _ made, ← htold, ← List.countP_eq_length_filter, ← hcount,
        hlog, hbefore, List.nil_append]
    rw [hnone, hlength] at honce
    refine ⟨i, later, hmade, fun after => ?_⟩
    exact ⟨(honce after).1 0 (by decide), (honce after).1 1 (by decide)⟩
  · cases hnotices

end VersionedObjects.Dynamic
