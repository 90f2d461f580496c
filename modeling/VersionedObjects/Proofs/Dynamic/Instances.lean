import VersionedObjects.Proofs.Dynamic.Ancestry
import VersionedObjects.Proofs.Dynamic.FirstRecord
import VersionedObjects.Proofs.Dynamic.SideBySide

/-!
# Making instances side by side

Instances of a framed class and of its counterpart are made alike, from the top of the path of
superclasses down. Each part of the framed instance has the same stored values as the part of the
plain one, or the record of its new object has them.
-/

namespace VersionedObjects.Dynamic

open Declaration Framing
open Store (FrameId ManagerId ObjectId World)

/-! ## One more instance -/

/-- A part of an instance comes last. -/
theorem inst_append (r : Runtime) (w : World Slots) (part : Instance) (i : InstanceId) :
    ({ r with world := w, instances := r.instances ++ [part] } : Runtime).inst i =
      if i = r.instances.length then part else r.inst i := by
  unfold Runtime.inst
  by_cases hi : i = r.instances.length
  · simp [hi]
  · rw [if_neg hi]
    rcases Nat.lt_or_gt_of_ne hi with hlt | hgt
    · rw [List.getElem?_append_left hlt]
    · have hone : (r.instances ++ [part]).length ≤ i := by
        rw [List.length_append]
        exact hgt
      rw [List.getElem?_eq_none hone, List.getElem?_eq_none (Nat.le_of_lt hgt)]

/-- A framed instance brings an object that nobody has. -/
theorem Cast.Sound.update {cast : Cast} (h : cast.Sound) (n : InstanceId) {role : Role}
    (hclasses : Counterpart role.cls role.plain role.recordType role.framed)
    (hobject : role.object.isSome = role.cls.isFramed)
    (hnew : ∀ i o, role.object = some o → (cast i).object ≠ some o) :
    Cast.Sound (Function.update cast n role) := by
  refine ⟨fun i => ?_, fun i => ?_, fun i j o hi hj => ?_⟩
  · rw [Function.update_apply]
    split
    · exact hclasses
    · exact h.counterpart i
  · rw [Function.update_apply]
    split
    · exact hobject
    · exact h.object i
  · rw [Function.update_apply] at hi hj
    by_cases hin : i = n
    · by_cases hjn : j = n
      · exact hin.trans hjn.symm
      · rw [if_pos hin] at hi
        rw [if_neg hjn] at hj
        exact absurd hj (hnew j o hi)
    · rw [if_neg hin] at hi
      by_cases hjn : j = n
      · rw [if_pos hjn] at hj
        exact absurd hi (hnew i o hj)
      · rw [if_neg hjn] at hj
        exact h.injective i j o hi hj

/-- One more part on each side, with the same values. -/
theorem Beside.add {holds holds' : ObjectId → Slots → Prop} {cast : Cast} {r s : Runtime}
    (h : Beside holds cast r s) (hlength : r.instances.length = s.instances.length)
    (hkeep : ∀ o x, holds o x → holds' o x) {role : Role} {fields plainFields : Association Value}
    (hunstored : ∀ name, role.plain.decl.property? name = none →
      fields.get? name = none ∧ plainFields.get? name = none)
    (hunframed : ∀ name, role.cls.slot? name = none → fields.get? name = plainFields.get? name)
    (hslots : ∀ o, role.object = some o → ∃ slots, holds' o slots ∧
      ∀ name k, role.cls.slot? name = some k → plainFields.get? name = some (slots.slot k))
    (w : World Slots) :
    Beside holds' (Function.update cast r.instances.length role)
      { r with world := w, instances := r.instances ++
        [{ cls := role.cls, object := role.object, fields, base := role.base }] }
      { s with instances := s.instances ++
        [{ cls := role.plain, object := none, fields := plainFields, base := role.base }] } := by
  have hplain (i : InstanceId) := inst_append s s.world
    { cls := role.plain, object := none, fields := plainFields, base := role.base } i
  rw [← hlength] at hplain
  refine ⟨fun i => ?_, fun i => ?_, fun i => ?_, fun i => ?_, fun i => ?_, fun i => ?_,
    fun i => ?_, fun i => ?_, fun i => ?_⟩
  · rw [inst_append, Function.update_apply]
    split
    · rfl
    · exact h.cls i
  · rw [inst_append, Function.update_apply]
    split
    · rfl
    · exact h.object i
  · rw [inst_append, Function.update_apply]
    split
    · rfl
    · exact h.base i
  · rw [hplain, Function.update_apply]
    split
    · rfl
    · exact h.plain_cls i
  · rw [hplain]
    split
    · rfl
    · exact h.plain_object i
  · rw [hplain, Function.update_apply]
    split
    · rfl
    · exact h.plain_base i
  · rw [inst_append, hplain, Function.update_apply]
    split
    · exact hunstored
    · exact h.unstored i
  · rw [inst_append, hplain, Function.update_apply]
    split
    · exact hunframed
    · exact h.unframed i
  · rw [hplain, Function.update_apply]
    split
    · exact hslots
    · intro o ho
      obtain ⟨slots, hholds, hvalues⟩ := h.slots i o ho
      exact ⟨slots, hkeep o slots hholds, hvalues⟩

/-! ## One part -/

/-- Stores the values of a part, adds it to the instances and runs its initializer blocks. -/
def addPart (calls : Calls) (c : LoadedClass) (base : Option InstanceId)
    (object : Option ObjectId) (body : List Stmt) : EvalM InstanceId := do
  let fields ← orFail (storedValues c [])
  let i ← modifyGetThe Runtime fun r =>
    (r.instances.length,
      { r with instances := r.instances ++ [{ cls := c, object, fields, base }] })
  runAll calls { self := i, property := none } [] (body ++ [])
  return i

/-- Makes the part of a class without constructors, after the part of its superclass. -/
def constructPart (calls : Calls) (m : ManagerId) (c : LoadedClass) (base : Option InstanceId) :
    EvalM InstanceId := do
  if c.isFramed then
    match chainBlock? c.decl with
    | some rest => do
      let o ← modifyGetThe (World Slots) fun w =>
        w.newObject m c.decl.name Slots.merge c.freshRecord
      addPart calls c base (some o) (rest ++ c.decl.initializers.tail.flatten)
    | none => fail (.load (c.decl.name ++ " is framed but does not build its record chain"))
  else addPart calls c base none c.decl.initializers.flatten

/-- Without constructors an instance is made of the part of its superclass and its own. -/
theorem construct_succ {calls : Calls} {m : ManagerId} {depth : Nat} {c : LoadedClass}
    (hc : c.decl.constructors = []) {r r₁ : Runtime} {base : Option InstanceId}
    (hbase : ((c.superclassIn (r.table m)).mapM fun d => construct calls m depth d []) r =
      .ok base r₁) :
    construct calls m (depth + 1) c [] r = constructPart calls m c base r₁ := by
  have hget : (getThe Runtime : EvalM Runtime) r = .ok r r := rfl
  rw [construct]
  dsimp only
  rw [hc, if_neg (by simp), bind_of_ok hget]
  refine (bind_of_ok hbase).trans ?_
  unfold constructPart
  split
  · cases chainBlock? c.decl <;> rfl
  · rfl

section

variable (calls : Calls) {m : ManagerId} {c plain : LoadedClass} {recordType : TypeExpr}
  {ps : List Property} (base : Option InstanceId) {fields : Association Value} {r : Runtime}

/-- A part with evaluated fields and an initializer that ends is a new instance at the end of the
list. -/
theorem addPart_eq (hfields : storedValues c [] = .ok fields) {object : Option ObjectId}
    {body : List Stmt} {r' : Runtime}
    (hrun : runAll calls { self := r.instances.length, property := none } [] body
      { r with instances := r.instances ++ [{ cls := c, object, fields, base }] } = .ok () r') :
    addPart calls c base object body r = .ok r.instances.length r' := by
  have hstored : (orFail (storedValues c []) : EvalM _) r = .ok fields r := by
    rw [hfields]
    rfl
  have hlast : (modifyGetThe Runtime (fun r : Runtime => (r.instances.length,
      { r with instances := r.instances ++ [{ cls := c, object, fields, base }] })) :
        EvalM InstanceId) r = .ok r.instances.length
          { r with instances := r.instances ++ [{ cls := c, object, fields, base }] } := rfl
  unfold addPart
  rw [bind_of_ok hstored, bind_of_ok hlast, List.append_nil, bind_of_ok hrun]
  rfl

/-- A class that is not framed adds its fields and nothing to the store. -/
theorem constructPart_unframed (m : ManagerId) (hframed : c.isFramed = false)
    (hblocks : c.decl.initializers = []) (hfields : storedValues c [] = .ok fields) (r : Runtime) :
    constructPart calls m c base r = .ok r.instances.length
      { r with instances := r.instances ++ [{ cls := c, object := none, fields, base }] } := by
  unfold constructPart
  rw [hframed, hblocks, if_neg Bool.false_ne_true]
  exact addPart_eq calls base hfields rfl

/-- The initializer block of a framed class starts with its record chain, and is the only one. -/
theorem Counterpart.chainBlock?_eq (h : Counterpart c plain recordType ps)
    (hframed : c.isFramed = true) :
    chainBlock? c.decl = some (ps.flatMap (Rule.initialStore recordType) ++ [.notifyCreated]) ∧
      c.decl.initializers.tail.flatten = [] := by
  rw [chainBlock?, h.initializers, hframed]
  exact ⟨rfl, rfl⟩

/-- A part with a record chain brings an object, which is filled with the initial values of the
framed properties. -/
theorem constructPart_framed (h : Counterpart c plain recordType ps) (hframed : c.isFramed = true)
    {there : World Slots → Prop} {holds : World Slots → ObjectId → Slots → Prop}
    (site : World.Site m there holds) (hthere : there r.world)
    (hfields : storedValues c [] = .ok fields) :
    ∃ o w slots, constructPart calls m c base r = .ok r.instances.length
        { r with
          world := w
          instances := r.instances ++ [{ cls := c, object := some o, fields, base }] } ∧
      o = r.world.objects.length ∧ there w ∧ holds w o slots ∧ Filled c ps [] slots ∧
      ∀ p x, holds r.world p x → holds w p x := by
  obtain ⟨o, v, hnew⟩ : ∃ o v,
      r.world.newObject m c.decl.name Slots.merge c.freshRecord = (o, v) := ⟨_, _, rfl⟩
  obtain ⟨ho, g, hsole, hmade⟩ := site.made hthere hnew
  have hobject : (modifyGetThe (World Slots) (fun w =>
      w.newObject m c.decl.name Slots.merge c.freshRecord) : EvalM ObjectId) r =
        .ok o { r with world := v } := by
    change EStateM.Result.ok (r.world.newObject m c.decl.name Slots.merge c.freshRecord).1
      { r with world := (r.world.newObject m c.decl.name Slots.merge c.freshRecord).2 } = _
    rw [hnew]
  -- The block runs with the part in place, which nothing in it changes.
  let part : Instance := { cls := c, object := some o, fields, base }
  let after : Runtime := { r with world := v, instances := r.instances ++ [part] }
  let sc : Scope := { self := r.instances.length, property := none }
  have hpart : after.inst sc.self = part := by
    rw [inst_append, if_pos rfl]
  have hpartObject : (after.inst sc.self).object = some o := by rw [hpart]
  have hpartClass : (after.inst sc.self).cls = c := by rw [hpart]
  obtain ⟨w, slots, hfills, hfilled, hslots, hrun⟩ :=
    runAll_chainBlock calls [] h hpartObject hpartClass hsole
  obtain ⟨hafter, hholds, hkept⟩ := hmade w slots hfills hfilled
  refine ⟨o, w, slots, ?_, ho, hafter, hholds, hslots, hkept⟩
  obtain ⟨hchain, hblocks⟩ := h.chainBlock?_eq hframed
  unfold constructPart
  rw [hframed, if_pos rfl, hchain]
  dsimp only
  rw [bind_of_ok hobject, hblocks, List.append_nil]
  exact addPart_eq (r := { r with world := v }) calls base hfields hrun

/-- A part is made, and if its class is framed the part has a new object whose record is filled. -/
theorem constructPart_eq (h : Counterpart c plain recordType ps)
    {there : World Slots → Prop} {holds : World Slots → ObjectId → Slots → Prop}
    (site : World.Site m there holds) (hthere : there r.world)
    (hfields : storedValues c [] = .ok fields) :
    ∃ object w, constructPart calls m c base r = .ok r.instances.length
        { r with
          world := w
          instances := r.instances ++ [{ cls := c, object, fields, base }] } ∧
      object.isSome = c.isFramed ∧ there w ∧ (∀ p x, holds r.world p x → holds w p x) ∧
      ∀ o, object = some o → o = r.world.objects.length ∧
        ∃ slots, holds w o slots ∧ Filled c ps [] slots := by
  cases hframed : c.isFramed with
  | false =>
    have hblocks : c.decl.initializers = [] := by
      rw [h.initializers, hframed]
      rfl
    have hpart := constructPart_unframed calls base m hframed hblocks hfields r
    exact ⟨none, r.world, hpart, rfl, hthere, fun _ _ hp => hp, nofun⟩
  | true =>
    obtain ⟨o, w, slots, hpart, ho, hafter, hholds, hfilled, hkept⟩ :=
      constructPart_framed calls base h hframed site hthere hfields
    refine ⟨some o, w, hpart, rfl, hafter, hkept, fun p hp => ?_⟩
    obtain rfl := Option.some.inj hp
    exact ⟨ho, slots, hholds, hfilled⟩

end

/-! ## Whole instances -/

/-- Two runtimes, at a place where objects are made, with counterparts under the same names and
instances that have the same values. -/
structure Together (m plainManager : ManagerId) (there : World Slots → Prop)
    (holds : World Slots → ObjectId → Slots → Prop) (r s : Runtime) : Prop where
  there : there r.world
  tables : (r.table m).Counterparts (s.table plainManager)
  length : r.instances.length = s.instances.length
  beside : ∃ cast : Cast, cast.Sound ∧ Beside (holds r.world) cast r s

section

variable {m plainManager : ManagerId} {there : World Slots → Prop}
  {holds : World Slots → ObjectId → Slots → Prop} {r s : Runtime}

/-- Both parts of counterparts are made, with the same values. -/
theorem Together.constructPart (h : Together m plainManager there holds r s)
    (site : World.Site m there holds) {c plain : LoadedClass} {recordType : TypeExpr}
    {ps : List Property} (hc : Counterpart c plain recordType ps) (calls plainCalls : Calls)
    (base : Option InstanceId) :
    ∃ i r' s', Dynamic.constructPart calls m c base r = .ok i r' ∧
      Dynamic.constructPart plainCalls plainManager plain base s = .ok i s' ∧
      Together m plainManager there holds r' s' ∧ r'.tables = r.tables := by
  obtain ⟨cast, hcast, hbeside⟩ := h.beside
  obtain ⟨fields, plainFields, hfields, hplainFields, hunstored, hunframed, hinitial⟩ :=
    hc.storedValues_eq []
  obtain ⟨object, w, hpart, hobject, hthere, hkept, hfilled⟩ :=
    constructPart_eq calls base hc site h.there hfields
  have hunmarked : plain.isFramed = false := by
    rw [LoadedClass.isFramed, hc.plain_record]
    rfl
  have hplainPart := constructPart_unframed plainCalls base plainManager hunmarked
    hc.plain_sourced.initializers hplainFields s
  let role : Role := { cls := c, plain, recordType, framed := ps, object, base }
  rw [← h.length] at hplainPart
  have hslots : ∀ o, role.object = some o → ∃ slots, holds w o slots ∧
      ∀ name k, role.cls.slot? name = some k → plainFields.get? name = some (slots.slot k) := by
    intro o ho
    obtain ⟨-, slots, hholds, hslots⟩ := hfilled o ho
    refine ⟨slots, hholds, fun name k hslot => ?_⟩
    obtain ⟨p, hp, rfl⟩ := hc.exists_of_slot? hslot
    have hmem := List.mem_of_getElem? hp
    rcases hslots p hmem k hslot with hvalue | ⟨hnone, -⟩
    · rw [hvalue]
      exact hinitial p hmem
    · cases hnone
  refine ⟨r.instances.length, _, _, hpart, hplainPart, ⟨hthere, h.tables, ?_, ?_⟩, rfl⟩
  · rw [List.length_append, List.length_append, h.length]
    rfl
  · refine ⟨Function.update cast r.instances.length role, hcast.update _ hc hobject ?_,
      hbeside.add h.length hkept hunstored hunframed hslots w⟩
    intro i o ho hi
    obtain ⟨slots, hholds, -⟩ := hbeside.slots i o hi
    exact absurd (hfilled o ho).1 (Nat.ne_of_lt (site.lt_length hholds))

/-- By induction on the path of superclasses: both instances are made, at the same position. -/
theorem Together.construct (h : Together m plainManager there holds r s)
    (site : World.Site m there holds) (calls plainCalls : Calls) {n : Nat} {c plain : LoadedClass}
    {recordType : TypeExpr} {ps : List Property} (hc : Counterpart c plain recordType ps)
    (hends : EndsWithin (r.table m) n c) :
    ∃ i r' s', Dynamic.construct calls m n c [] r = .ok i r' ∧
      Dynamic.construct plainCalls plainManager n plain [] s = .ok i s' ∧
      Together m plainManager there holds r' s' ∧ r'.tables = r.tables := by
  induction n generalizing c plain recordType ps r s with
  | zero => exact hends.elim
  | succ n ih =>
    obtain ⟨hnone, hsome⟩ := superclassIn_counterpart h.tables hc
    obtain ⟨base, r₁, s₁, hbase, hplainBase, h₁, htables⟩ : ∃ base r₁ s₁,
        ((c.superclassIn (r.table m)).mapM fun d => Dynamic.construct calls m n d []) r =
          .ok base r₁ ∧
        ((plain.superclassIn (s.table plainManager)).mapM fun d =>
          Dynamic.construct plainCalls plainManager n d []) s = .ok base s₁ ∧
        Together m plainManager there holds r₁ s₁ ∧ r₁.tables = r.tables := by
      cases hd : c.superclassIn (r.table m) with
      | none =>
        rw [hnone hd]
        exact ⟨none, r, s, rfl, rfl, h, rfl⟩
      | some d =>
        obtain ⟨e, _, _, hplain, hcounterpart⟩ := hsome d hd
        obtain ⟨i, r₁, s₁, hr₁, hs₁, h₁, htables⟩ := ih h hcounterpart (hends d hd)
        rw [hplain]
        refine ⟨some i, r₁, s₁, ?_, ?_, h₁, htables⟩
        · exact bind_of_ok hr₁
        · exact bind_of_ok hs₁
    rw [construct_succ hc.constructors hbase,
      construct_succ hc.plain_sourced.constructors hplainBase]
    obtain ⟨i, r', s', hr', hs', h', htables'⟩ := h₁.constructPart site hc calls plainCalls base
    exact ⟨i, r', s', hr', hs', h', htables'.trans htables⟩

end

end VersionedObjects.Dynamic
