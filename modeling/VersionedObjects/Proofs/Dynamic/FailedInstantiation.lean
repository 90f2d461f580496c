import VersionedObjects.Proofs.Dynamic.MadeParts
import VersionedObjects.Proofs.Store.Independence

/-!
# What a failed instantiation leaves behind

The parts of an instance are made from the top of the line of superclasses down, and each part is
registered with its frame and announced before the next one is made. When a later part fails, what
was done for the earlier ones stays. Main statement: `failed_instantiation`.
-/

namespace VersionedObjects.Dynamic

open Declaration
open Store (ManagerId ObjectId World)

/-! ## The line of parts -/

namespace Part

/-- The parts of an instance, up to a depth, in the order in which they are made. -/
def line (table : ClassTable) : Nat → Part → List Part
  | 0, _ => []
  | depth + 1, part => (part.super? table).elim [] (line table depth) ++ [part]

variable {table : ClassTable} {part : Part}

/-- The line of a topmost part is that part. -/
theorem line_of_topmost (h : part.super? table = none) (depth : Nat) :
    part.line table (depth + 1) = [part] := by
  rw [line, h]
  rfl

/-- The line of a part is that of its base, and then the part. -/
theorem line_of_super? {base : Part} (h : part.super? table = some base) (depth : Nat) :
    part.line table (depth + 1) = base.line table depth ++ [part] := by
  rw [line, h]
  rfl

/-- The part fails before the part of its superclass is made: it has not as many arguments as
parameters, or an argument for the superclass has no value. -/
def Falters (table : ClassTable) (part : Part) : Prop :=
  part.1.constructor.params.length ≠ part.2.length ∨
    (part.1.superclassIn table).isSome = true ∧ part.superArgs.toOption = none

end Part

section

variable {r later : Runtime} {m : ManagerId} {calls : Calls}

/-- What is left when making the parts of an instance fails: nothing at all if the topmost part
falters or the line of superclasses is longer than it is followed, and else what was done for the
parts before the one that fails, with the object of that one. -/
def Runtime.Abandons (later r : Runtime) (m : ManagerId) (parts : List Part) : Prop :=
  (later = r ∧ ∀ top, parts.head? = some top →
      top.Falters (r.table m) ∨ (top.super? (r.table m)).isSome = true) ∨
    ∃ before up after, parts = before ++ up :: after ∧
      later.Builds r m ((before ++ [up]).countP Part.hasChain)
        (Part.announced r.world.objects.length before)

/-- What is left of the parts above a part is left of all. -/
theorem Runtime.Abandons.below {part base : Part} (hsuper : part.super? (r.table m) = some base)
    {depth : Nat} (h : later.Abandons r m (base.line (r.table m) depth)) :
    later.Abandons r m (base.line (r.table m) depth ++ [part]) := by
  rcases h with ⟨rfl, htop⟩ | ⟨before, up, after, hparts, hbuilds⟩
  · refine .inl ⟨rfl, fun top hhead => ?_⟩
    rw [List.head?_append] at hhead
    cases hbase : (base.line (later.table m) depth).head? with
    | some first =>
      rw [hbase] at hhead
      exact htop top (hbase.trans hhead)
    | none =>
      rw [hbase] at hhead
      obtain rfl := Option.some.inj hhead
      exact .inr (Option.isSome_of_eq_some hsuper)
  · refine .inr ⟨before, up, after ++ [part], ?_, hbuilds⟩
    rw [hparts, List.append_assoc, List.cons_append]

/-- A part that falters leaves everything as it was. -/
theorem construct_of_falters (calls : Calls) {part : Part} (h : part.Falters (r.table m))
    (depth : Nat) :
    ∃ e, construct calls m (depth + 1) part.1 part.2 r = .error e r := by
  by_cases harity : part.1.constructor.params.length = part.2.length
  · obtain ⟨hsuper, hargs⟩ := h.resolve_left (not_not_intro harity)
    obtain ⟨c, hc⟩ := Option.isSome_iff_exists.mp hsuper
    cases hresult : part.superArgs with
    | ok args => rw [hresult] at hargs; cases hargs
    | error e =>
      refine ⟨.eval e, ?_⟩
      rw [construct_of_base harity, hc, Option.mapM_some, hresult, bind_map_left]
      rfl
  · obtain ⟨e, he⟩ : ∃ e, ∀ depth,
        construct calls m (depth + 1) part.1 part.2 r = .error (.eval e) r :=
      construct_of_arity harity
    exact ⟨_, he depth⟩

/-- A part that does not falter, and has no part before it, is all there is to make. -/
theorem construct_of_topmost {part : Part} (h : ¬ part.Falters (r.table m))
    (hsuper : part.super? (r.table m) = none) (depth : Nat) :
    construct calls m (depth + 1) part.1 part.2 r = completePart calls m part none r := by
  obtain ⟨harity, hargs⟩ := not_or.mp h
  have hnone : part.1.superclassIn (r.table m) = none := by
    cases hc : part.1.superclassIn (r.table m) with
    | none => rfl
    | some c =>
      rw [hc] at hargs
      have hsome : part.superArgs.toOption ≠ none := fun hnone => hargs ⟨rfl, hnone⟩
      obtain ⟨args, hargs⟩ := Option.ne_none_iff_exists'.mp hsome
      rw [Part.super?, if_neg harity, hc, hargs] at hsuper
      cases hsuper
  rw [construct_of_base (not_not.mp harity), hnone]
  rfl

/-- By induction on the depth: the parts are made one after the other, up to the one that fails. -/
theorem leads_construct (hr : r.world.Orderly) (d depth : Nat) (part : Part) :
    let parts := part.line (r.table m) depth
    Leads
      (fun i later => r.instances.length ≤ i ∧ later.Builds r m (parts.countP Part.hasChain)
        (Part.announced r.world.objects.length parts))
      (·.Abandons r m parts) (construct (.ofDepth d) m depth part.1 part.2 r) := by
  induction depth generalizing part with
  | zero => exact .inl ⟨rfl, nofun⟩
  | succ depth ih =>
    dsimp only
    cases hsuper : part.super? (r.table m) with
    | none =>
      rw [Part.line_of_topmost hsuper]
      by_cases hfalters : part.Falters (r.table m)
      · obtain ⟨e, he⟩ := construct_of_falters (.ofDepth d) hfalters depth
        rw [he]
        exact .inl ⟨rfl, fun top htop => .inl (Option.some.inj htop ▸ hfalters)⟩
      · rw [construct_of_topmost hfalters hsuper]
        have hstart : r.Builds r m (List.countP Part.hasChain [])
            (Part.announced r.world.objects.length []) := .refl r m
        refine (leads_completePart hr hstart part (fun b hb => ?_) d).mono (fun _ _ => id)
          fun later hlater => ?_
        · cases hb
        · exact .inr ⟨[], part, [], rfl, hlater⟩
    | some base =>
      rw [Part.line_of_super? hsuper, construct_of_super? hsuper]
      refine (ih base).bind (fun later hlater => hlater.below hsuper) fun i later hlater => ?_
      refine (leads_completePart hr hlater.2 part (fun b hb => ?_) d).mono (fun _ _ => id)
        fun latest hlatest => ?_
      · exact Option.some.inj hb ▸ hlater.1
      · exact .inr ⟨_, part, [], rfl, hlatest⟩

end

/-! ## Failed instantiation -/

/-- **What a failed instantiation leaves behind.** Nothing, if there is no such class, or if the
topmost part of the instance falters or is never reached. Otherwise the line of parts comes to one
that fails, and the parts before it are complete. Every part up to the one that fails, if it has a
chain, has left its object: observers were told of the creation of objects among these only, each
once at most, and at least of those whose parts are complete and announce them. The frame in which
the instance was being made touched these objects in order, all of them if it is still open, and
will report them as changed; no other frame touched anything. -/
theorem failed_instantiation {r later : Runtime} (hr : r.world.Orderly) {d depth : Nat}
    {m : ManagerId} {name : String} {args : List Value} {e : Failure}
    (h : instantiate (.ofDepth d) depth m name args r = .error e later) :
    (later = r ∧ ∀ c, (r.table m).get? name = some c →
      ∀ top, (Part.line (r.table m) depth (c, args)).head? = some top →
        top.Falters (r.table m) ∨ (top.super? (r.table m)).isSome = true) ∨
    ∃ c before up after, (r.table m).get? name = some c ∧
      Part.line (r.table m) depth (c, args) = before ++ up :: after ∧
      let first := r.world.objects.length
      let made := (before ++ [up]).countP Part.hasChain
      later.world.objects.length = first + made ∧
      (∃ events, later.world.log = r.world.log ++ events ∧
        let created := events.filterMap Store.Event.created?
        created.Nodup ∧ (∀ o ∈ created, first ≤ o ∧ o < first + made) ∧
        ∀ o ∈ Part.announced first before, o ∈ created) ∧
      ∃ kept ≤ made,
        (∀ f, (later.world.frame f).touched = (r.world.frame f).touched ++
          if r.world.makingFrame? m = some f then List.range' first kept else []) ∧
        ((r.world.makingFrame? m).isSome = true → 0 < made → 0 < kept) ∧
        ((later.world.makingFrame? m).isSome = true → kept = made) ∧
        ∀ f event, (later.world.commit f).1 = .ok (.ok event) →
          event.changed = (later.world.frame f).listed ∧
          event.changed.Perm (later.world.frame f).touched := by
  unfold instantiate at h
  rw [bind_of_ok (getRuntime_apply r)] at h
  cases hfound : (r.table m).get? name with
  | none =>
    rw [hfound] at h
    cases h
    exact .inl ⟨rfl, nofun⟩
  | some c =>
    rw [hfound] at h
    have hleft := leads_construct (m := m) hr d depth (c, args)
    dsimp only at h hleft
    rw [h] at hleft
    rcases hleft with ⟨rfl, htop⟩ | ⟨before, up, after, hline, hbuilds⟩
    · exact .inl ⟨rfl, fun c' hc' => Option.some.inj hc' ▸ htop⟩
    · have hworld := hbuilds.world
      obtain ⟨events, hlog, hnodup, hmem⟩ := hworld.log
      obtain ⟨kept, hkept, htouched, hopen, hpos⟩ := hworld.touched
      refine .inr ⟨c, before, up, after, rfl, hline, hworld.length_objects,
        ⟨events, hlog, hnodup, fun o ho => ?_, fun o ho => ?_⟩, kept, hkept, htouched, hpos, hopen,
        fun f event hok => ?_⟩
      · obtain ⟨hle, hannounced⟩ := (hmem o).mp ho
        exact ⟨hle, hworld.length_objects ▸ World.lt_length_of_announced hannounced⟩
      · refine (hmem o).mpr ⟨?_, hworld.told o ho⟩
        obtain ⟨p, hp, rfl⟩ := List.mem_map.mp ho
        exact (List.mem_zipIdx (List.mem_of_mem_filter hp)).1
      · have hchanged := World.changed_of_commit hok
        exact ⟨hchanged, hchanged ▸ (later.world.frame f).listed_perm⟩

/-- A framed class with a framed superclass, and with an initializer that has no value. -/
def unboundLeafSource : String :=
  "@Framed class Base \x7b var a: Int = 1 \x7d " ++
    "@Framed class Leaf : Base \x7b var b: Int = nope \x7d"

/-- What the text declares. -/
def unboundLeaf : Module where
  classes := [
    { name := "Base"
      annotations := ["Framed"]
      properties := [
        { name := "a"
          type := .named "Int"
          mutable := true
          initializer := some (.literal (.int 1)) }] },
    { name := "Leaf"
      annotations := ["Framed"]
      supertypes := [.named "Base"]
      properties := [
        { name := "b"
          type := .named "Int"
          mutable := true
          initializer := some (.name "nope") }] }]

/-- The classes are loaded, and the store is where some requests lead. -/
def unboundLeafRuntime (requests : List (Store.Request Slots)) : Runtime :=
  { ((({} : Runtime).addManager {}).loadModule 0 unboundLeaf).2 with
    world := ({} : World Slots).serveAll requests }

/-- A frame is opened and entered. -/
def insideFrame : List (Store.Request Slots) :=
  [.addManager {}, .call 0 (.openFrame {}), .call 0 (.enter 0)]

/-- What is left when a leaf cannot be made: how many objects there are, which of them were
announced, what the first frame touched, and the frame for new objects. -/
def unboundLeafRemains (requests : List (Store.Request Slots)) :
    Option (Nat × List ObjectId × List ObjectId × Option Store.FrameId) :=
  match makeInstance 0 "Leaf" [] (unboundLeafRuntime requests) with
  | .error (.eval (.unboundName "nope")) later =>
    some (later.world.objects.length, later.world.log.filterMap Store.Event.created?,
      (later.world.frame 0).touched, later.world.makingFrame? 0)
  | _ => none

/-- Inside a frame both objects are left, the first one announced, and the frame has touched both.
-/
theorem unboundLeafRemains_insideFrame :
    unboundLeafRemains insideFrame = some (2, [0], [0, 1], some 0) := by
  rw [unboundLeafRemains, unboundLeafRuntime, Runtime.loadModule, Framing.Pipeline.standard_eq]
  decide +kernel

/-- Outside of frames both objects are left, the first one announced. -/
theorem unboundLeafRemains_outside :
    unboundLeafRemains [.addManager {}] = some (2, [0], [], none) := by
  rw [unboundLeafRemains, unboundLeafRuntime, Runtime.loadModule, Framing.Pipeline.standard_eq]
  decide +kernel

/-- What is left is that of a runtime to which the failed instantiation led. -/
theorem error_of_unboundLeafRemains {requests : List (Store.Request Slots)} {made : Nat}
    {created touched : List ObjectId} {making : Option Store.FrameId}
    (h : unboundLeafRemains requests = some (made, created, touched, making)) :
    ∃ later, makeInstance 0 "Leaf" [] (unboundLeafRuntime requests) =
        .error (.eval (.unboundName "nope")) later ∧
      later.world.objects.length = made ∧
      later.world.log.filterMap Store.Event.created? = created ∧
      (later.world.frame 0).touched = touched ∧ later.world.makingFrame? 0 = making := by
  unfold unboundLeafRemains at h
  split at h
  · next later hresult =>
    cases h
    exact ⟨later, hresult, rfl, rfl, rfl, rfl⟩
  · cases h

/-- The part of the superclass is announced, inside a frame or outside of frames, and the frame
touched the objects of both parts, although there is no instance. -/
theorem left_behind_by_failure :
    Grammar.parseModule unboundLeafSource = .ok unboundLeaf ∧
    (∀ place : Option Store.FrameId, place = none ∨ place = some 0 →
      ¬ ∀ (r later : Runtime) (m : ManagerId) (name : String) (args : List Value) (e : EvalError)
        (events : List Store.Event), r.world.Orderly → r.world.makingFrame? m = place →
        makeInstance m name args r = .error (.eval e) later →
        later.world.log = r.world.log ++ events → events.filterMap Store.Event.created? = []) ∧
    ¬ ∀ (r later : Runtime) (m : ManagerId) (name : String) (args : List Value) (e : EvalError)
      (f : Store.FrameId), r.world.Orderly → r.world.makingFrame? m = some f →
      makeInstance m name args r = .error (.eval e) later →
      (later.world.frame f).touched = (r.world.frame f).touched := by
  have hcreated (requests : List (Store.Request Slots)) {made : Nat} {touched : List ObjectId}
      {making : Option Store.FrameId}
      (hremains : unboundLeafRemains requests = some (made, [0], touched, making))
      (hlog : (({} : World Slots).serveAll requests).log = []) :
      ¬ ∀ (r later : Runtime) (m : ManagerId) (name : String) (args : List Value) (e : EvalError)
        (events : List Store.Event), r.world.Orderly →
        r.world.makingFrame? m = (({} : World Slots).serveAll requests).makingFrame? 0 →
        makeInstance m name args r = .error (.eval e) later →
        later.world.log = r.world.log ++ events → events.filterMap Store.Event.created? = [] := by
    intro h
    obtain ⟨later, herror, -, hcreated, -⟩ := error_of_unboundLeafRemains hremains
    have hnone := h (unboundLeafRuntime requests) later 0 "Leaf" [] _ later.world.log
      (World.orderly_serveAll requests) rfl herror
      (by rw [unboundLeafRuntime, hlog, List.nil_append])
    rw [hcreated] at hnone
    cases hnone
  refine ⟨by decide +kernel, ?_, fun h => ?_⟩
  · rintro place (rfl | rfl)
    · exact hcreated _ unboundLeafRemains_outside rfl
    · exact hcreated _ unboundLeafRemains_insideFrame rfl
  · obtain ⟨later, herror, -, -, htouched, -⟩ :=
      error_of_unboundLeafRemains unboundLeafRemains_insideFrame
    have hsame := h (unboundLeafRuntime insideFrame) later 0 "Leaf" [] _ 0
      (World.orderly_serveAll insideFrame) rfl herror
    rw [htouched] at hsame
    cases hsame

/-- Both parts of the leaf have objects, and these stay with the frame, which reports them in some
order. -/
theorem failed_instantiation_of_unboundLeaf :
    ∃ later, makeInstance 0 "Leaf" [] (unboundLeafRuntime insideFrame) =
        .error (.eval (.unboundName "nope")) later ∧
      (later.world.frame 0).touched = [0, 1] ∧
      ∀ event, (later.world.commit 0).1 = .ok (.ok event) → event.changed.Perm [0, 1] := by
  obtain ⟨later, herror, hlength, -, -, hmaking⟩ :=
    error_of_unboundLeafRemains unboundLeafRemains_insideFrame
  have hplace : (unboundLeafRuntime insideFrame).world.makingFrame? 0 = some 0 := rfl
  have hstart : ((unboundLeafRuntime insideFrame).world.frame 0).touched = [] := rfl
  have hresult := herror
  rw [makeInstance, bind_of_ok (getRuntime_apply _), Calls.standard] at hresult
  rcases failed_instantiation (World.orderly_serveAll insideFrame) hresult with
    ⟨rfl, -⟩ | ⟨c, before, up, after, -, -, hobjects, -, kept, -, htouched, -, hopen, hchanged⟩
  · cases hlength
  · -- The frame is still open, so it touched all objects that were made, which are two.
    rw [hlength] at hobjects
    have hmade : (before ++ [up]).countP Part.hasChain = 2 :=
      (hobjects.trans (Nat.zero_add _)).symm
    have hboth : (later.world.frame 0).touched = [0, 1] := by
      rw [htouched, hplace, hstart, if_pos rfl, hopen (by rw [hmaking]; rfl), hmade]
      rfl
    exact ⟨later, herror, hboth, fun event hevent => hboth ▸ (hchanged 0 event hevent).2⟩

end VersionedObjects.Dynamic
