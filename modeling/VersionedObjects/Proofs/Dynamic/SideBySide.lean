import VersionedObjects.Proofs.Dynamic.Counterpart
import VersionedObjects.Proofs.Dynamic.RecordAccess

/-!
# Framed and plain instances side by side

Two runtimes hold the same instances, in one with their framed properties in records and in the
other without any: a stored value is met by the slot of the record that a writable frame sees. A
value stored on both sides leaves them side by side.
-/

namespace VersionedObjects.Dynamic

open Declaration Framing
open Store (FrameId ManagerId ObjectId World)

/-! ## Runtimes side by side -/

/-- What never changes of an instance: its classes in both runtimes, with the properties that are
framed, its object and the part of its superclass. -/
structure Role where
  cls : LoadedClass
  plain : LoadedClass
  recordType : TypeExpr
  framed : List Property
  object : Option ObjectId
  base : Option InstanceId

/-- The role of every instance. -/
abbrev Cast := InstanceId → Role

/-- The classes of a role are counterparts, and framed instances have objects of their own. -/
structure Cast.Sound (cast : Cast) : Prop where
  counterpart : ∀ i, Counterpart (cast i).cls (cast i).plain (cast i).recordType (cast i).framed
  object : ∀ i, (cast i).object.isSome = (cast i).cls.isFramed
  injective : ∀ i j o, (cast i).object = some o → (cast j).object = some o → i = j

/-- The instances of two runtimes have the same values: what a plain instance stores, the framed
one stores too or holds in its object. -/
structure Beside (holds : ObjectId → Slots → Prop) (cast : Cast) (r s : Runtime) : Prop where
  cls : ∀ i, (r.inst i).cls = (cast i).cls
  object : ∀ i, (r.inst i).object = (cast i).object
  base : ∀ i, (r.inst i).base = (cast i).base
  plain_cls : ∀ i, (s.inst i).cls = (cast i).plain
  plain_object : ∀ i, (s.inst i).object = none
  plain_base : ∀ i, (s.inst i).base = (cast i).base
  /-- Only properties have stored values. -/
  unstored : ∀ i name, (cast i).plain.decl.property? name = none →
    (r.inst i).fields.get? name = none ∧ (s.inst i).fields.get? name = none
  unframed : ∀ i name, (cast i).cls.slot? name = none →
    (r.inst i).fields.get? name = (s.inst i).fields.get? name
  slots : ∀ i o, (cast i).object = some o → ∃ slots, holds o slots ∧
    ∀ name k, (cast i).cls.slot? name = some k →
      (s.inst i).fields.get? name = some (slots.slot k)

/-- The instances have the same values inside a writable frame, to which records show theirs. -/
structure Mirrors (m : ManagerId) (f : FrameId) (cast : Cast) (r s : Runtime) : Prop
    extends Beside (r.world.Shows m f) cast r s where
  inside : r.world.Inside m f

/-! ## Changes to stored values -/

/-- A runtime in which an instance stores a value, and all else is as in another. -/
structure Stores (r' r : Runtime) (i : InstanceId) (name : String) (value : Value) : Prop where
  world : r'.world = r.world
  cls : ∀ j, (r'.inst j).cls = (r.inst j).cls
  object : ∀ j, (r'.inst j).object = (r.inst j).object
  base : ∀ j, (r'.inst j).base = (r.inst j).base
  get? : ∀ j other, (r'.inst j).fields.get? other =
    if j = i ∧ other = name then some value else (r.inst j).fields.get? other

/-- A field that an instance has is given a value. -/
theorem setField_of_has {sc : Scope} {r : Runtime} {name : String}
    (h : ((r.inst sc.self).fields.get? name).isSome = true) (value : Value) :
    ∃ r', sc.setField name value r = .ok true r' ∧ Stores r' r sc.self name value := by
  have hlt : sc.self < r.instances.length := by
    by_contra hlt
    rw [Runtime.inst, List.getElem?_eq_none (Nat.le_of_not_lt hlt)] at h
    cases h
  have hinst (j : InstanceId) : (r.modifyFields sc.self (·.put name value)).inst j =
      if j = sc.self then { r.inst j with fields := (r.inst j).fields.put name value }
      else r.inst j := by
    simp only [Runtime.inst, Runtime.modifyFields, List.getElem?_modify]
    by_cases hj : j = sc.self
    · subst hj
      simp [List.getElem?_eq_getElem hlt]
    · simp [hj, Ne.symm hj]
  refine ⟨r.modifyFields sc.self (·.put name value), ?_, rfl, fun j => ?_, fun j => ?_, fun j => ?_,
    fun j other => ?_⟩
  · unfold Scope.setField
    rw [bind_of_ok (inst_apply sc r), Association.has_eq_isSome_get?, h]
    rfl
  · rw [hinst]; split <;> rfl
  · rw [hinst]; split <;> rfl
  · rw [hinst]; split <;> rfl
  · rw [hinst]
    by_cases hj : j = sc.self
    · by_cases hother : other = name
      · simp [hj, hother, Association.get?_put_self]
      · simp [hj, hother, Association.get?_put_of_ne value hother]
    · simp [hj]

/-- Setting a field that the instance does not have is refused and changes nothing. -/
theorem setField_of_not_has {sc : Scope} {r : Runtime} {name : String}
    (h : (r.inst sc.self).fields.get? name = none) (value : Value) :
    sc.setField name value r = .ok false r := by
  unfold Scope.setField
  rw [bind_of_ok (inst_apply sc r), Association.has_eq_isSome_get?, h]
  rfl

namespace Mirrors

variable {m : ManagerId} {f : FrameId} {cast : Cast} {r s : Runtime} {i : InstanceId}
  {name : String}

/-- Mirrored instances declare the same properties, up to the framing. -/
theorem property? (h : Mirrors m f cast r s) (hcast : cast.Sound) (i : InstanceId)
    (name : String) :
    (r.inst i).cls.decl.property? name =
      ((s.inst i).cls.decl.property? name).map
        (hostProperty (cast i).recordType (cast i).framed) := by
  rw [h.cls, h.plain_cls, (hcast.counterpart i).property?]

/-- A slot belongs to an object. -/
theorem exists_object (h : Mirrors m f cast r s) (hcast : cast.Sound) {k : Nat}
    (hslot : (cast i).cls.slot? name = some k) :
    ∃ o slots, (cast i).object = some o ∧ r.world.Shows m f o slots ∧
      ∀ other k, (cast i).cls.slot? other = some k →
        (s.inst i).fields.get? other = some (slots.slot k) := by
  have hframed := (hcast.counterpart i).isFramed_of_slot? hslot
  rw [← hcast.object, Option.isSome_iff_exists] at hframed
  obtain ⟨o, ho⟩ := hframed
  obtain ⟨slots, hshows, hvalues⟩ := h.slots i o ho
  exact ⟨o, slots, ho, hshows, hvalues⟩

/-- Reading a record tells an observer at most. -/
theorem of_world (h : Mirrors m f cast r s) {w : World Slots} (hframes : w.frames = r.world.frames)
    (hcurrent : w.current = r.world.current) (hobjects : w.objects = r.world.objects) :
    Mirrors m f cast { r with world := w } s := by
  have hstance : (w.frame f).stance = (r.world.frame f).stance := by
    rw [World.frame, hframes, ← World.frame]
  have hobject (o : ObjectId) : w.object o = r.world.object o := by
    rw [World.object, hobjects, ← World.object]
  refine { h with inside := h.inside.of_stance hcurrent hstance, slots := fun i o ho => ?_ }
  obtain ⟨slots, hshows, hvalues⟩ := h.slots i o ho
  exact ⟨slots, hshows.of_object hstance (by rw [hobject]) (by rw [hobject]), hvalues⟩

/-- A property without a slot is stored on both sides. -/
theorem stores_unframed (h : Mirrors m f cast r s) (hslot : (cast i).cls.slot? name = none)
    {r' s' : Runtime} {value : Value} (hr : Stores r' r i name value)
    (hs : Stores s' s i name value) (hhas : ((s.inst i).fields.get? name).isSome = true) :
    Mirrors m f cast r' s' := by
  refine
    { inside := hr.world ▸ h.inside
      cls := fun j => (hr.cls j).trans (h.cls j)
      object := fun j => (hr.object j).trans (h.object j)
      base := fun j => (hr.base j).trans (h.base j)
      plain_cls := fun j => (hs.cls j).trans (h.plain_cls j)
      plain_object := fun j => (hs.object j).trans (h.plain_object j)
      plain_base := fun j => (hs.base j).trans (h.plain_base j)
      unstored := fun j other hother => ?_
      unframed := fun j other hother => ?_
      slots := fun j o ho => ?_ }
  · have hne : ¬(j = i ∧ other = name) := by
      rintro ⟨rfl, rfl⟩
      rw [(h.unstored j other hother).2] at hhas
      cases hhas
    rw [hr.get?, hs.get?, if_neg hne, if_neg hne]
    exact h.unstored j other hother
  · rw [hr.get?, hs.get?, h.unframed j other hother]
  · obtain ⟨slots, hshows, hvalues⟩ := h.slots j o ho
    refine ⟨slots, hr.world ▸ hshows, fun other k hother => ?_⟩
    have hne : ¬(j = i ∧ other = name) := by
      rintro ⟨rfl, rfl⟩
      rw [hslot] at hother
      cases hother
    rw [hs.get?, if_neg hne]
    exact hvalues other k hother

/-- A property with a slot is stored in the record where the plain instance stores it. -/
theorem stores_framed (h : Mirrors m f cast r s) (hcast : cast.Sound) {k : Nat}
    (hslot : (cast i).cls.slot? name = some k) {o : ObjectId} (ho : (cast i).object = some o)
    {w : World Slots} {s' : Runtime} {slots : Slots} {value : Value} (hinside : w.Inside m f)
    (hshows : w.Shows m f o (slots.store k value))
    (hothers : ∀ p x, p ≠ o → r.world.Shows m f p x → w.Shows m f p x)
    (hvalues : ∀ other k, (cast i).cls.slot? other = some k →
      (s.inst i).fields.get? other = some (slots.slot k))
    (hs : Stores s' s i name value) :
    Mirrors m f cast { r with world := w } s' := by
  refine
    { h with
      inside := hinside
      plain_cls := fun j => (hs.cls j).trans (h.plain_cls j)
      plain_object := fun j => (hs.object j).trans (h.plain_object j)
      plain_base := fun j => (hs.base j).trans (h.plain_base j)
      unstored := fun j other hother => ?_
      unframed := fun j other hother => ?_
      slots := fun j p hp => ?_ }
  · have hne : ¬(j = i ∧ other = name) := by
      rintro ⟨rfl, rfl⟩
      have hnone := (h.unstored j other hother).2
      rw [hvalues other k hslot] at hnone
      cases hnone
    rw [hs.get?, if_neg hne]
    exact h.unstored j other hother
  · have hne : ¬(j = i ∧ other = name) := by
      rintro ⟨rfl, rfl⟩
      rw [hslot] at hother
      cases hother
    rw [hs.get?, if_neg hne]
    exact h.unframed j other hother
  · by_cases hj : j = i
    · subst hj
      obtain rfl : o = p := Option.some.inj (ho.symm.trans hp)
      refine ⟨_, hshows, fun other l hother => ?_⟩
      rw [hs.get?, Slots.slot_store]
      by_cases hname : other = name
      · subst hname
        obtain rfl : k = l := Option.some.inj (hslot.symm.trans hother)
        rw [if_pos ⟨rfl, rfl⟩, if_pos rfl]
      · have hl : l ≠ k := by
          rintro rfl
          exact hname ((hcast.counterpart j).slot?_injective hother hslot)
        rw [if_neg fun hboth => hname hboth.2, if_neg hl]
        exact hvalues other l hother
    · obtain ⟨x, hx, hxvalues⟩ := h.slots j p hp
      have hp' : p ≠ o := by
        rintro rfl
        exact hj (hcast.injective j i p hp ho)
      refine ⟨x, hothers p x hp' hx, fun other l hother => ?_⟩
      rw [hs.get?, if_neg fun hboth => hj hboth.1]
      exact hxvalues other l hother

end Mirrors

end VersionedObjects.Dynamic
