import VersionedObjects.Proofs.Dynamic.FailedInstantiation
import VersionedObjects.Proofs.Store.Notices

/-!
# Parts announced one after the other

The code of a framed class announces the object of its part before the next part is made. So the
notices of the parts come one after the other from the top of the line of superclasses down, one for
each framed part and none for the others. Main statement: `leads_construct_announced`.
-/

namespace VersionedObjects.Dynamic

open Declaration
open Store (ManagerId ObjectId Generation World)

/-- An instance of the class announces its object if it has one. -/
def LoadedClass.Heralds (c : LoadedClass) : Prop :=
  c.isFramed = true → ((chainBlock? c.decl).getD []).any (·.announces) = true

/-! ## Worlds at work -/

section

variable {W : World Slots → Prop} {first bound : ObjectId} {w : World Slots} {m : ManagerId}

/-- Code leaves an orderly world orderly. -/
theorem Tended.orderly (h : Tended W first bound)
    (hbound : ∀ v, W v → bound ≤ v.objects.length) :
    Tended (fun v => W v ∧ v.Orderly) first bound where
  announce v o hv hle hlt :=
    ⟨h.announce v o hv.1 hle hlt, (World.confined_notifyCreated hv.2 o).orderly⟩
  store v o g change hv :=
    ⟨h.store v o g change hv.1, (World.confined_store hv.2 rfl g change).orderly⟩
  readable v o hv hle hlt :=
    ⟨h.readable v o hv.1 hle hlt, (World.confined_readable hv.2 (v.object o).manager o).orderly⟩
  writable v o hv hle hlt :=
    ⟨h.writable v o hv.1 hle hlt,
      World.orderly_writable hv.2 (Nat.lt_of_lt_of_le hlt (hbound v hv.1))⟩

/-- Code that tends to the objects of a world makes the world later and keeps it orderly. -/
theorem tended_later (w : World Slots) :
    Tended (fun v => v.Later w ∧ v.Orderly) 0 w.objects.length :=
  Tended.orderly (W := fun v => v.Later w)
    { announce := fun _ _ hv _ hlt =>
        hv.trans (.notifyCreated (Nat.lt_of_lt_of_le hlt hv.length_objects))
      store := fun v o g change hv => hv.trans (.store v o g change)
      readable := fun v o hv _ _ => hv.trans (.readable v o)
      writable := fun v o hv _ _ => hv.trans (.writable v o) }
    fun _ hv => hv.length_objects

/-- Code that tends to the objects that were made leaves the notices of them as they are. -/
theorem tended_raises (hw : w.Orderly) (m : ManagerId) (made : List (String × Generation))
    (least : Nat) :
    Tended (fun v => v.Raises w m made least ∧ v.Orderly) w.objects.length
      (w.objects.length + made.length) := by
  have hlength (v : World Slots) (hv : v.Raises w m made least) :
      w.objects.length + made.length = v.objects.length := hv.makes.length_objects.symm
  refine Tended.orderly (W := fun v => v.Raises w m made least) ⟨fun v o hv hle hlt => ?_,
    fun v o g change hv => hv.store o g change, fun v o hv _ _ => hv.readable o,
    fun v o hv hle hlt => ?_⟩ fun v hv => (hlength v hv).le
  · exact (hv.announce hle (hlength v hv ▸ hlt)).1
  · exact hv.writable hw hle (hlength v hv ▸ hlt)

end

/-! ## Where parts are -/

namespace Part

/-- The names of the classes of the framed parts. -/
def framedNames (parts : List Part) : List String :=
  (parts.filter (·.1.isFramed)).map (·.1.name)

/-- The classes of the parts with their objects: framed parts have objects from a number on, one
after the other. -/
def seats (first : ObjectId) : List Part → List (LoadedClass × Option ObjectId)
  | [] => []
  | part :: rest =>
    if part.1.isFramed then (part.1, some first) :: seats (first + 1) rest
    else (part.1, none) :: seats first rest

/-- The instances that the parts become, without their stored values; each has the one before it as
the part of its superclass. -/
def skeletons (first : ObjectId) (i : InstanceId) (parts : List Part) : List Instance :=
  (seats first parts).mapIdx fun k seat =>
    { cls := seat.1, object := seat.2, fields := []
      base := if k = 0 then none else some (i + (k - 1)) }

/-- The generations of the objects of the framed parts in their order: each object is made when the
part of the superclass is complete. -/
def stamps (calls : Calls) (m : ManagerId) (r : Runtime) : Nat → Part → List Generation
  | 0, _ => []
  | depth + 1, part =>
    let complete := (part.super? (r.table m)).elim r fun base =>
      stateAfter (construct calls m depth base.1 base.2) r
    (part.super? (r.table m)).elim [] (stamps calls m r depth) ++
      if part.1.isFramed then [complete.world.stampFor m] else []

variable {first : ObjectId} {i : InstanceId} {parts : List Part} {part : Part}

/-- The framed parts of two lines in a row are those of the first and then those of the second. -/
theorem framedNames_append (parts more : List Part) :
    framedNames (parts ++ more) = framedNames parts ++ framedNames more := by
  simp [framedNames]

/-- A part is one of the framed ones if its class is framed. -/
theorem framedNames_singleton (part : Part) :
    framedNames [part] = if part.1.isFramed then [part.1.name] else [] := by
  cases hframed : part.1.isFramed <;> simp [framedNames, hframed]

/-- Every part has a seat. -/
@[simp] theorem length_seats (first : ObjectId) (parts : List Part) :
    (seats first parts).length = parts.length := by
  induction parts generalizing first with
  | nil => rfl
  | cons part rest ih =>
    rw [seats]
    split <;> rw [List.length_cons, ih, List.length_cons]

/-- By induction on the parts. -/
theorem seats_concat (first : ObjectId) (parts : List Part) (part : Part) :
    seats first (parts ++ [part]) = seats first parts ++ [(part.1,
      if part.1.isFramed then some (first + (framedNames parts).length) else none)] := by
  induction parts generalizing first with
  | nil =>
    rw [List.nil_append, seats, seats]
    split <;> rfl
  | cons other rest ih =>
    rw [List.cons_append, seats, seats]
    cases hother : other.1.isFramed with
    | false =>
      rw [if_neg Bool.false_ne_true, if_neg Bool.false_ne_true, ih, List.cons_append, framedNames,
        framedNames, List.filter_cons_of_neg (by simp [hother])]
    | true =>
      rw [if_pos rfl, if_pos rfl, ih, List.cons_append, framedNames, framedNames,
        List.filter_cons_of_pos (by simp [hother]), List.map_cons, List.length_cons,
        Nat.add_right_comm, Nat.add_assoc]

/-- The objects of the parts are as many as the framed parts. -/
theorem object_of_mem_seats {seat : LoadedClass × Option ObjectId} (h : seat ∈ seats first parts)
    {o : ObjectId} (ho : seat.2 = some o) :
    first ≤ o ∧ o < first + (framedNames parts).length := by
  induction parts using List.reverseRecOn with
  | nil => cases h
  | append_singleton parts part ih =>
    rw [seats_concat, List.mem_append, List.mem_singleton] at h
    rw [framedNames_append, List.length_append, framedNames_singleton]
    rcases h with h | rfl
    · obtain ⟨hle, hlt⟩ := ih h
      exact ⟨hle, Nat.lt_of_lt_of_le hlt (Nat.add_le_add_left (Nat.le_add_right _ _) _)⟩
    · dsimp only at ho
      split at ho
      · next hframed =>
        cases ho
        rw [if_pos hframed]
        exact ⟨Nat.le_add_right _ _, by simp⟩
      · cases ho

/-- Every part has a skeleton. -/
theorem length_skeletons (first : ObjectId) (i : InstanceId) (parts : List Part) :
    (skeletons first i parts).length = parts.length := by
  rw [skeletons, List.length_mapIdx, length_seats]

/-- One more part brings its skeleton, on the part before it as its base. -/
theorem skeletons_concat (first : ObjectId) (i : InstanceId) (parts : List Part) (part : Part) :
    skeletons first i (parts ++ [part]) = skeletons first i parts ++
      [{ cls := part.1
         object := if part.1.isFramed then some (first + (framedNames parts).length) else none
         fields := []
         base := if parts.length = 0 then none else some (i + (parts.length - 1)) }] := by
  rw [skeletons, seats_concat, List.mapIdx_concat, length_seats, skeletons]

end Part

/-! ## Runtimes in which parts are made -/

/-- A runtime that another one came to, where instances may have been added but no classes. -/
structure Runtime.Follows (later r : Runtime) : Prop where
  world : later.world.Later r.world
  orderly : later.world.Orderly
  tables : later.tables = r.tables
  skeletons : ∃ more, later.skeletons = r.skeletons ++ more ∧
    ∀ part ∈ more, ∀ o, part.object = some o → o < later.world.objects.length

/-- The position of the last of the parts among the instances. -/
def Runtime.lastPart (r : Runtime) (parts : List Part) : Option InstanceId :=
  if parts.length = 0 then none else some (r.instances.length + (parts.length - 1))

/-- A runtime that another one came to by making parts one after the other, with objects of certain
types and generations; observers were told of so many of the objects at least. -/
structure Runtime.Stages (later r : Runtime) (m : ManagerId) (parts : List Part)
    (made : List (String × Generation)) (least : Nat) : Prop where
  world : later.world.Raises r.world m made least
  orderly : later.world.Orderly
  tables : later.tables = r.tables
  skeletons : later.skeletons = r.skeletons ++
    Part.skeletons r.world.objects.length r.instances.length parts
  names : made.map (·.1) = Part.framedNames parts

section

variable {r later latest : Runtime} {m : ManagerId} {parts : List Part} {part : Part}
  {made : List (String × Generation)} {least : Nat}

/-- Every instance has a skeleton. -/
@[simp] theorem length_skeletons (r : Runtime) : r.skeletons.length = r.instances.length :=
  List.length_map _

/-- One more instance brings its skeleton. -/
theorem skeletons_append (r : Runtime) (part : Instance) :
    Runtime.skeletons { r with instances := r.instances ++ [part] } =
      r.skeletons ++ [part.skeleton] := by
  simp [Runtime.skeletons]

/-- A runtime follows from itself. -/
theorem Runtime.Follows.refl (hr : r.world.Orderly) : r.Follows r where
  world := .refl _
  orderly := hr
  tables := rfl
  skeletons := ⟨[], (List.append_nil _).symm, List.forall_mem_nil _⟩

/-- More happened in the store. -/
theorem Runtime.Follows.of_world (h : later.Follows r) {w : World Slots}
    (hlater : w.Later later.world) (hw : w.Orderly) :
    Runtime.Follows { later with world := w } r where
  world := h.world.trans hlater
  orderly := hw
  tables := h.tables
  skeletons := by
    obtain ⟨more, hmore, hobjects⟩ := h.skeletons
    exact ⟨more, hmore, fun part hpart o ho =>
      Nat.lt_of_lt_of_le (hobjects part hpart o ho) hlater.length_objects⟩

namespace Runtime.Stages

/-- At the start no part is made. -/
theorem start (hr : r.world.Orderly) : r.Stages r m [] [] 0 where
  world := .refl _ m
  orderly := hr
  tables := rfl
  skeletons := (List.append_nil _).symm
  names := rfl

/-- An object was made for every framed part. -/
theorem length_made (h : later.Stages r m parts made least) :
    made.length = (Part.framedNames parts).length := by
  rw [← h.names, List.length_map]

/-- An instance was made for every part. -/
theorem length_instances (h : later.Stages r m parts made least) :
    later.instances.length = r.instances.length + parts.length := by
  rw [← length_skeletons, h.skeletons, List.length_append, length_skeletons,
    Part.length_skeletons]

/-- An instance from there on is one of the parts, if it is any. -/
theorem skeleton_inst (h : later.Stages r m parts made least) (k : Nat) :
    (later.inst (r.instances.length + k)).skeleton =
      (Part.skeletons r.world.objects.length r.instances.length parts)[k]?.getD default := by
  rw [Dynamic.skeleton_inst, h.skeletons, List.getElem?_append_right (by simp), length_skeletons,
    Nat.add_sub_cancel_left]

/-- The new instances are the parts in their order. -/
theorem inst_eq (h : later.Stages r m parts made least) {k : Nat} (hk : k < parts.length) :
    (Part.seats r.world.objects.length parts)[k]? =
        some ((later.inst (r.instances.length + k)).cls,
          (later.inst (r.instances.length + k)).object) ∧
      (later.inst (r.instances.length + k)).base =
        if k = 0 then none else some (r.instances.length + (k - 1)) := by
  obtain ⟨seat, hseat⟩ : ∃ seat, (Part.seats r.world.objects.length parts)[k]? = some seat :=
    ⟨_, List.getElem?_eq_getElem (by simpa using hk)⟩
  have hskeleton := h.skeleton_inst k
  rw [Part.skeletons, List.getElem?_mapIdx, hseat, Option.map_some, Option.getD_some] at hskeleton
  have hcls := congrArg Instance.cls hskeleton
  have hobject := congrArg Instance.object hskeleton
  exact ⟨hseat.trans (congrArg some (Prod.ext hcls.symm hobject.symm)),
    congrArg Instance.base hskeleton⟩

/-- By induction on the position of a part among the parts. -/
theorem partsFrom_eq (h : later.Stages r m parts made least) {k fuel : Nat}
    (hk : k < parts.length) (hfuel : k ≤ fuel) :
    (Dynamic.parts.partsFrom later fuel (r.instances.length + k)).reverse =
      List.range' r.instances.length (k + 1) := by
  induction k generalizing fuel with
  | zero =>
    have hbase := (h.inst_eq hk).2
    cases fuel with
    | zero => rfl
    | succ fuel =>
      rw [Dynamic.parts.partsFrom, hbase]
      rfl
  | succ k ih =>
    have hbase := (h.inst_eq hk).2
    obtain ⟨fuel, rfl⟩ : ∃ f, fuel = f + 1 := ⟨fuel - 1, by omega⟩
    rw [Dynamic.parts.partsFrom, hbase, if_neg (Nat.succ_ne_zero k), Option.elim_some,
      Nat.add_sub_cancel, List.reverse_cons,
      ih (Nat.lt_of_succ_lt hk) (Nat.le_of_succ_le_succ hfuel)]
    simp [List.range'_concat]

/-- The instance at the last of the new positions has all of them as its parts. -/
theorem parts_eq (h : later.Stages r m parts made least) {i : InstanceId}
    (hi : r.lastPart parts = some i) :
    ((Dynamic.parts later i).reverse.map fun j => ((later.inst j).cls, (later.inst j).object)) =
      Part.seats r.world.objects.length parts := by
  unfold Runtime.lastPart at hi
  split at hi
  · cases hi
  · next hne =>
    obtain rfl := Option.some.inj hi
    have hlength : parts.length - 1 + 1 = parts.length := by omega
    rw [Dynamic.parts, h.partsFrom_eq (by omega) (by rw [h.length_instances]; omega), hlength]
    refine List.ext_getElem (by simp) fun k hk _ => ?_
    rw [List.length_map, List.length_range'] at hk
    obtain ⟨_, hseat⟩ := List.getElem?_eq_some_iff.mp (h.inst_eq hk).1
    simp [hseat]

/-- What the new instances refer to was made with them. -/
theorem encloses (h : later.Stages r m parts made least) :
    later.Encloses r.instances.length r.world.objects.length
      (r.world.objects.length + made.length) where
  base i hi b hb := by
    obtain ⟨k, rfl⟩ := Nat.exists_eq_add_of_le hi
    have hskeleton := congrArg Instance.base (h.skeleton_inst k)
    rw [Part.skeletons, List.getElem?_mapIdx] at hskeleton
    replace hb := hskeleton.symm.trans hb
    cases hseat : (Part.seats r.world.objects.length parts)[k]? with
    | none => rw [hseat] at hb; cases hb
    | some seat =>
      rw [hseat, Option.map_some, Option.getD_some] at hb
      dsimp only at hb
      split at hb
      · cases hb
      · exact Option.some.inj hb ▸ Nat.le_add_right _ _
  object i hi o ho := by
    obtain ⟨k, rfl⟩ := Nat.exists_eq_add_of_le hi
    have hskeleton := congrArg Instance.object (h.skeleton_inst k)
    rw [Part.skeletons, List.getElem?_mapIdx] at hskeleton
    replace ho := hskeleton.symm.trans ho
    cases hseat : (Part.seats r.world.objects.length parts)[k]? with
    | none => rw [hseat] at ho; cases ho
    | some seat =>
      rw [hseat, Option.map_some, Option.getD_some] at ho
      rw [h.length_made]
      exact Part.object_of_mem_seats (List.mem_of_getElem? hseat) ho

/-- Code keeps the stage. -/
theorem of_at (h : later.Stages r m parts made least) {least' : Nat}
    (hat : latest.At (fun v => v.Raises r.world m made least' ∧ v.Orderly) later) :
    latest.Stages r m parts made least' where
  world := hat.world.1
  orderly := hat.world.2
  tables := hat.tables.trans h.tables
  skeletons := hat.skeletons.trans h.skeletons
  names := h.names

/-- A runtime in which parts were made follows from the one before. -/
theorem follows (h : later.Stages r m parts made least) : later.Follows r where
  world := h.world.later
  orderly := h.orderly
  tables := h.tables
  skeletons := by
    refine ⟨_, h.skeletons, fun part hpart o ho => ?_⟩
    obtain ⟨k, hk, rfl⟩ := List.mem_mapIdx.mp hpart
    rw [h.world.makes.length_objects, h.length_made]
    exact (Part.object_of_mem_seats (List.getElem_mem hk) ho).2

end Runtime.Stages

/-! ## Making the parts -/

variable {before : List Part} {d : Nat}

/-- Code of a part, which is the last one, keeps the stage. -/
theorem leads_runAll_stages (hr : r.world.Orderly) {j : InstanceId}
    (hj : r.instances.length ≤ j) (body : List Stmt) (locals : Association Value)
    (h : later.Stages r m parts made least) :
    Leads (fun _ latest => latest.Stages r m parts made least) (·.Follows r)
      (runAll (.ofDepth d) { self := j, property := none } locals body later) := by
  have henclosed := h.encloses.enclosed_at (tended_raises hr m made least)
  exact ((henclosed.runAll hj d locals body).leads ⟨⟨h.world, h.orderly⟩, rfl, rfl⟩).mono
    (fun _ _ hlatest => h.of_at hlatest) fun _ hlatest => (h.of_at hlatest).follows

/-- Code that announces the object of the last part does so before the next part is made. -/
theorem leads_runAll_announces (hr : r.world.Orderly) {j : InstanceId}
    (hj : r.instances.length ≤ j) {o : ObjectId} (hobject : (later.inst j).object = some o)
    (ho : o + 1 = r.world.objects.length + made.length) {body : List Stmt}
    (hbody : body.any (·.announces) = true) (locals : Association Value)
    (h : later.Stages r m parts made least) :
    Leads (fun _ latest => latest.Stages r m parts made made.length) (·.Follows r)
      (runAll (.ofDepth d) { self := j, property := none } locals body later) := by
  have hP := h.encloses.enclosed_at (tended_raises hr m made least)
  have hQ := h.encloses.enclosed_at (tended_raises hr m made made.length)
  obtain ⟨hle, hlt⟩ := h.encloses.object j hj o hobject
  refine (hP.runAll_announces hQ hj (o := o) (fun s hs => ?_) (fun s hs => ?_) d hbody locals
    ⟨⟨h.world, h.orderly⟩, rfl, rfl⟩).mono (fun _ _ hlatest => h.of_at hlatest)
    fun _ hlatest => hlatest.elim (fun hlatest => (h.of_at hlatest).follows)
      fun hlatest => (h.of_at hlatest).follows
  · have hsame := congrArg Instance.object (skeleton_inst_congr hs.skeletons j)
    exact hsame.trans hobject
  · obtain ⟨hraises, horderly⟩ := hs.world
    have hknown : o < s.world.objects.length := hraises.makes.length_objects.symm ▸ hlt
    have hannounced := (hraises.announce hle hknown).2 ho
    exact { hs with world := ⟨hannounced, (World.confined_notifyCreated horderly o).orderly⟩ }

/-- A part is added to the instances, and its code runs. -/
theorem leads_furnishPart_stages (hfollows : later.Follows r)
    (hworld : later.world.Raises r.world m made least)
    (hskeletons : later.skeletons = r.skeletons ++
      Part.skeletons r.world.objects.length r.instances.length before)
    (hnames : made.map (·.1) = Part.framedNames (before ++ [part]))
    {object : Option ObjectId} (hobject : object = if part.1.isFramed then
      some (r.world.objects.length + (Part.framedNames before).length) else none)
    {body : List Stmt}
    (hrun : ∀ s, s.Stages r m (before ++ [part]) made least →
      (s.inst (r.instances.length + before.length)).object = object →
      Leads (fun _ latest => latest.Stages r m (before ++ [part]) made made.length) (·.Follows r)
        (runAll (.ofDepth d) { self := r.instances.length + before.length, property := none }
          part.locals (body ++ part.1.constructor.body) s)) :
    Leads
      (fun i latest => r.lastPart (before ++ [part]) = some i ∧
        latest.Stages r m (before ++ [part]) made made.length)
      (·.Follows r)
      (furnishPart (.ofDepth d) part (r.lastPart before) object body later) := by
  have hlength : later.instances.length = r.instances.length + before.length := by
    rw [← length_skeletons, hskeletons, List.length_append, length_skeletons,
      Part.length_skeletons]
  unfold furnishPart
  cases storedValues part.1 part.locals with
  | error e => exact hfollows
  | ok fields =>
    have hstage : Runtime.Stages { later with instances := later.instances ++
        [{ cls := part.1, object, fields, base := r.lastPart before }] } r m (before ++ [part])
        made least :=
      { world := hworld
        orderly := hfollows.orderly
        tables := hfollows.tables
        skeletons := by
          rw [skeletons_append, hskeletons, Part.skeletons_concat, ← hobject, List.append_assoc]
          rfl
        names := hnames }
    have hinst := inst_append later later.world
      { cls := part.1, object, fields, base := r.lastPart before } later.instances.length
    rw [if_pos rfl] at hinst
    rw [← hlength] at hrun
    refine (hrun _ hstage (by rw [hinst])).bind (fun _ => id) fun _ latest hlatest => ⟨?_, hlatest⟩
    rw [Runtime.lastPart, List.length_append, List.length_singleton, if_neg (Nat.succ_ne_zero _),
      Nat.add_sub_cancel, hlength]

/-- A part is made after those before it. -/
theorem leads_completePart_stages (hr : r.world.Orderly) (hstart : r.world.Later {})
    (hm : m < r.world.managers.length) (h : later.Stages r m before made made.length)
    (hpart : part.1.Heralds) :
    Leads
      (fun i latest => r.lastPart (before ++ [part]) = some i ∧
        ∃ more, more.map (·.2) = (if part.1.isFramed then [later.world.stampFor m] else []) ∧
          latest.Stages r m (before ++ [part]) (made ++ more) (made ++ more).length)
      (·.Follows r) (completePart (.ofDepth d) m part (r.lastPart before) later) := by
  have hnext : r.instances.length ≤ r.instances.length + before.length := Nat.le_add_right _ _
  cases hframed : part.1.isFramed with
  | false =>
    rw [completePart, hframed]
    refine (leads_furnishPart_stages h.follows h.world h.skeletons ?_ ?_ fun s hs hobject =>
      leads_runAll_stages hr hnext _ _ hs).mono (fun i latest hlatest => ?_) fun _ => id
    · rw [h.names, Part.framedNames_append, Part.framedNames_singleton, hframed]
      exact (List.append_nil _).symm
    · rw [hframed]
      rfl
    · exact ⟨hlatest.1, [], rfl, by rw [List.append_nil]; exact hlatest.2⟩
  | true =>
    obtain ⟨rest, hchain, hannounces⟩ : ∃ rest, chainBlock? part.1.decl = some rest ∧
        rest.any (·.announces) = true := by
      have hheralds := hpart hframed
      cases hchain : chainBlock? part.1.decl with
      | none => rw [hchain] at hheralds; cases hheralds
      | some rest => rw [hchain] at hheralds; exact ⟨rest, rfl, hheralds⟩
    have hraises := h.world.newObject hr hstart hm part.1.decl.name Slots.merge part.1.freshRecord
    have hobject : later.world.objects.length =
        r.world.objects.length + (Part.framedNames before).length := by
      rw [h.world.makes.length_objects, h.length_made]
    rw [completePart, hframed, hchain]
    change Leads _ _ ((modifyGetThe (World Slots) _ >>= _ : EvalM InstanceId) later)
    rw [bind_of_ok (newObject_apply later m part.1), hobject]
    have hnew : World.Later (later.world.newObject m part.1.decl.name Slots.merge
      part.1.freshRecord).2 later.world := .newObject ..
    have hfollows := h.follows.of_world hnew
      (World.confined_newObject h.orderly m part.1.decl.name Slots.merge part.1.freshRecord).orderly
    refine (leads_furnishPart_stages hfollows hraises h.skeletons ?_ (by rw [hframed]; rfl)
      fun s hs hobject => leads_runAll_announces hr hnext hobject ?_ ?_ _ hs).mono
        (fun i latest hlatest => ⟨hlatest.1, _, rfl, hlatest.2⟩) fun _ => id
    · rw [List.map_append, h.names, Part.framedNames_append, Part.framedNames_singleton, hframed]
      rfl
    · rw [List.length_append, List.length_singleton, h.length_made, Nat.add_assoc]
    · rw [List.append_assoc, List.any_append, hannounces, Bool.true_or]

/-- By induction on the depth: the part of the superclass is made and announced before the rest. -/
theorem leads_construct_announced (hr : r.world.Orderly) (hstart : r.world.Later {})
    (hm : m < r.world.managers.length) (htable : ∀ entry ∈ r.table m, entry.2.Heralds)
    (d depth : Nat) (part : Part) (hpart : part.1.Heralds) :
    let parts := part.line (r.table m) depth
    Leads
      (fun i later => r.lastPart parts = some i ∧ ∃ made,
        made.map (·.2) = part.stamps (.ofDepth d) m r depth ∧
          later.Stages r m parts made made.length)
      (·.Follows r) (construct (.ofDepth d) m depth part.1 part.2 r) := by
  induction depth generalizing part with
  | zero => exact .refl hr
  | succ depth ih =>
    dsimp only
    rw [Part.stamps]
    cases hsuper : part.super? (r.table m) with
    | none =>
      rw [Part.line_of_topmost hsuper, Option.elim_none, Option.elim_none, List.nil_append]
      by_cases hfalters : part.Falters (r.table m)
      · obtain ⟨e, he⟩ := construct_of_falters (.ofDepth d) hfalters depth
        rw [he]
        exact .refl hr
      · have hlast : r.lastPart [] = none := rfl
        rw [construct_of_topmost hfalters hsuper, ← hlast]
        refine (leads_completePart_stages hr hstart hm (.start hr) hpart).mono
          (fun i later hlater => ?_) fun _ => id
        exact hlater
    | some base =>
      have hbase : base.1.Heralds := by
        obtain ⟨i, hi⟩ := Part.loaded_of_super? hsuper
        exact hi ▸ htable _ (List.getElem_mem i.isLt)
      rw [Part.line_of_super? hsuper, construct_of_super? hsuper]
      refine (ih base hbase).result.bind (fun _ => id) fun i later hlater => ?_
      obtain ⟨hresult, hi, made, hstamps, hstages⟩ := hlater
      have hstate : stateAfter (construct (.ofDepth d) m depth base.1 base.2) r = later := by
        rw [stateAfter, hresult]
      rw [← hi]
      refine (leads_completePart_stages hr hstart hm hstages hpart).mono
        (fun j latest hlatest => ?_) fun _ => id
      obtain ⟨hj, more, hmore, hlatest⟩ := hlatest
      refine ⟨hj, made ++ more, ?_, hlatest⟩
      rw [List.map_append, hstamps, hmore, Option.elim_some, Option.elim_some, hstate]

end

end VersionedObjects.Dynamic
