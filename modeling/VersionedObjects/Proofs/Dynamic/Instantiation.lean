import VersionedObjects.Dynamic.Loading
import VersionedObjects.Proofs.Declaration.Equality
import VersionedObjects.Proofs.Dynamic.Evaluation
import VersionedObjects.Proofs.Dynamic.SuperclassParts

/-!
# When instantiation ends

The parts of an instance are made from the top of the path of superclasses down, and the path is
followed wherever it leads. Main statement: `instantiation_ends`.
-/

namespace VersionedObjects.Dynamic

open Declaration
open Store (ManagerId ObjectId)

/-- Calls of accessors that nest too deep. -/
def Calls.Exhaust (calls : Calls) : Prop :=
  ∃ i name r r', calls.get i name r = .error .exhausted r' ∨
    ∃ value, calls.set i name value r = .error .exhausted r'

/-! ## Making a part -/

/-- Makes the instance of a part with its object, and runs what is left to run. -/
def furnishPart (calls : Calls) (part : Part) (base : Option InstanceId)
    (object : Option ObjectId) (body : List Stmt) : EvalM InstanceId := do
  let fields ← orFail (storedValues part.1 part.locals)
  let i ← modifyGetThe Runtime fun r =>
    (r.instances.length,
      { r with instances := r.instances ++ [{ cls := part.1, object, fields, base }] })
  runAll calls { self := i, property := none } part.locals (body ++ part.1.constructor.body)
  return i

/-- Makes the rest of an instance, after the part of the superclass. -/
def completePart (calls : Calls) (m : ManagerId) (part : Part) (base : Option InstanceId) :
    EvalM InstanceId :=
  let c := part.1
  if c.isFramed then
    match chainBlock? c.decl with
    | some rest => do
      let o ← modifyGetThe (Store.World Slots) fun w =>
        w.newObject m c.decl.name Slots.merge c.freshRecord
      furnishPart calls part base (some o) (rest ++ c.decl.initializers.tail.flatten)
    | none => fail (.load (c.decl.name ++ " is framed but does not build its record chain"))
  else furnishPart calls part base none c.decl.initializers.flatten

section

variable {calls : Calls} {m : ManagerId} {r : Runtime} {part : Part}

/-- To look at the runtime gives it. -/
theorem getRuntime_apply (r : Runtime) : (getThe Runtime : EvalM Runtime) r = .ok r r :=
  rfl

/-- With the wrong number of arguments nothing is made. -/
theorem construct_of_arity (h : part.1.constructor.params.length ≠ part.2.length) :
    ∃ e, ∀ depth, construct calls m (depth + 1) part.1 part.2 r = .error (.eval e) r := by
  refine ⟨.arity part.1.decl.name part.1.constructor.params.length part.2.length, fun depth => ?_⟩
  unfold LoadedClass.constructor at h
  rw [construct]
  dsimp only
  rw [if_pos h]
  rfl

/-- What is left to do once the part of the superclass is there. -/
theorem construct_of_base (h : part.1.constructor.params.length = part.2.length) (depth : Nat) :
    construct calls m (depth + 1) part.1 part.2 r =
      (((part.1.superclassIn (r.table m)).mapM fun baseClass => do
          construct calls m depth baseClass (← orFail part.superArgs)) >>=
        completePart calls m part) r := by
  unfold LoadedClass.constructor at h
  rw [construct]
  dsimp only
  rw [if_neg (not_not_intro h), bind_of_ok (getRuntime_apply r)]
  rfl

/-- The part of the superclass is made one step up, and then the rest. -/
theorem construct_of_super? {base : Part} (h : part.super? (r.table m) = some base) (depth : Nat) :
    construct calls m (depth + 1) part.1 part.2 r =
      (construct calls m depth base.1 base.2 >>= fun i =>
        completePart calls m part (some i)) r := by
  unfold Part.super? at h
  split at h
  · cases h
  · next harity =>
    obtain ⟨c, hc, h⟩ := Option.bind_eq_some_iff.mp h
    obtain ⟨args, hargs, h⟩ := Option.bind_eq_some_iff.mp h
    cases h
    rw [construct_of_base (not_not.mp harity), hc]
    have hsuper : (orFail part.superArgs : EvalM (List Value)) = pure args := by
      cases hresult : part.superArgs with
      | error e => rw [hresult] at hargs; cases hargs
      | ok args' =>
        rw [hresult] at hargs
        cases hargs
        rfl
    rw [Option.mapM_some, hsuper, pure_bind, bind_map_left]

/-- Where no part comes first, the depth does not matter: making the part fails at once, or the part
is all that there is to make. -/
theorem construct_of_super?_none (calls : Calls) (h : part.super? (r.table m) = none) :
    (∃ e, ∀ depth, construct calls m (depth + 1) part.1 part.2 r = .error (.eval e) r) ∨
      ∀ depth,
        construct calls m (depth + 1) part.1 part.2 r = completePart calls m part none r := by
  by_cases harity : part.1.constructor.params.length = part.2.length
  · unfold Part.super? at h
    rw [if_neg (not_not_intro harity)] at h
    cases hc : part.1.superclassIn (r.table m) with
    | none =>
      refine .inr fun depth => ?_
      rw [construct_of_base harity, hc]
      rfl
    | some c =>
      cases hsuper : part.superArgs with
      | ok args => rw [hc, hsuper] at h; cases h
      | error e =>
        refine .inl ⟨e, fun depth => ?_⟩
        rw [construct_of_base harity, hc, Option.mapM_some, hsuper, bind_map_left]
        rfl
  · exact .inl (construct_of_arity harity)

/-! ## Depths -/

/-- By induction on the depth, to which the path is followed without anything made. -/
theorem construct_of_ancestor?_ne_none {depth : Nat}
    (h : part.ancestor? (r.table m) depth ≠ none) :
    construct calls m depth part.1 part.2 r = .error .exhausted r := by
  induction depth generalizing part with
  | zero => rfl
  | succ depth ih =>
    cases hsuper : part.super? (r.table m) with
    | none =>
      rw [Part.ancestor?, hsuper] at h
      exact absurd rfl h
    | some base =>
      rw [Part.ancestor?, hsuper, Option.bind_some] at h
      rw [construct_of_super? hsuper, bind_of_error (ih h)]

/-- By induction on the length of the path: to follow it further than it leads changes nothing. -/
theorem construct_of_ancestor?_eq_none (calls : Calls) {n depth : Nat}
    (h : part.ancestor? (r.table m) n = none) (hdepth : n ≤ depth) :
    construct calls m depth part.1 part.2 r = construct calls m n part.1 part.2 r := by
  induction n generalizing part depth with
  | zero => cases h
  | succ n ih =>
    obtain ⟨depth, rfl⟩ : ∃ d, depth = d + 1 := ⟨depth - 1, by omega⟩
    cases hsuper : part.super? (r.table m) with
    | none =>
      rcases construct_of_super?_none calls hsuper with ⟨e, he⟩ | hpart
      · rw [he, he]
      · rw [hpart, hpart]
    | some base =>
      rw [Part.ancestor?, hsuper, Option.bind_some] at h
      have hbase : construct calls m depth base.1 base.2 r = construct calls m n base.1 base.2 r :=
        ih h (by omega)
      rw [construct_of_super? hsuper, construct_of_super? hsuper]
      change EStateM.bind _ _ r = EStateM.bind _ _ r
      unfold EStateM.bind
      rw [hbase]

/-! ## Calls that nest too deep -/

/-- Evaluation nests too deep only where a call of an accessor does. -/
theorem premises_exhaust (calls : Calls) (sc : Scope) :
    Premises (fun _ => True) (fun e _ => e = .exhausted → calls.Exhaust) calls sc (fun _ => True)
      True where
  error _ _ := nofun
  get name r _ := by
    cases h : calls.get sc.self name r with
    | ok v r' => exact ⟨trivial, trivial⟩
    | error e r' => exact ⟨trivial, fun he => ⟨sc.self, name, r, r', .inl (he ▸ h)⟩⟩
  set name value r _ := by
    cases h : calls.set sc.self name value r with
    | ok v r' => exact ⟨trivial, trivial⟩
    | error e r' => exact ⟨trivial, fun he => ⟨sc.self, name, r, r', .inr ⟨value, he ▸ h⟩⟩⟩
  setField _ _ _ _ := trivial
  object _ _ _ _ := trivial
  announce _ _ _ _ := trivial
  store _ _ _ _ _ := trivial
  readable _ _ := keeps_onStore (fun _ _ _ _ _ => ⟨trivial, trivial⟩)
    fun _ _ _ _ _ => ⟨trivial, nofun⟩
  writable _ _ _ := keeps_onStore (fun _ _ _ _ _ => ⟨trivial, trivial⟩)
    fun _ _ _ _ _ => ⟨trivial, nofun⟩

/-- Only calls of accessors nest too deep when a part is completed. -/
theorem keeps_completePart (calls : Calls) (m : ManagerId) (part : Part)
    (base : Option InstanceId) :
    Keeps (fun _ => True) (fun e _ => e = .exhausted → calls.Exhaust) anything
      (completePart calls m part base) := by
  have herror (e : EvalError) (_ : Runtime) : Failure.eval e = .exhausted → calls.Exhaust := nofun
  have hfurnish (object : Option ObjectId) (body : List Stmt) :
      Keeps (fun _ => True) (fun e _ => e = .exhausted → calls.Exhaust) anything
        (furnishPart calls part base object body) :=
    (keeps_orFail (Q := anything) herror fun _ _ => trivial).bind fun fields _ =>
      Keeps.bind (Q := anything) (fun _ _ => ⟨trivial, trivial⟩) fun i _ =>
        ((premises_exhaust calls _).runAll (fun _ => trivial) _).bind fun _ _ =>
          keeps_pure trivial
  unfold completePart
  dsimp only
  split
  · split
    · exact Keeps.bind (Q := anything) (fun _ _ => ⟨trivial, trivial⟩) fun o _ => hfurnish _ _
    · exact keeps_fail herror _
  · exact hfurnish _ _

/-- Where completing a part nests too deep calls of accessors do. -/
theorem exhaust_of_completePart {base : Option InstanceId} {r' : Runtime}
    (h : completePart calls m part base r = .error .exhausted r') : calls.Exhaust := by
  have hkeeps := keeps_completePart calls m part base r trivial
  rw [h] at hkeeps
  exact hkeeps.2 rfl

/-- By induction on the length of the path: what nests too deep is a call. -/
theorem exhaust_of_construct {n : Nat} (h : part.ancestor? (r.table m) n = none) {r' : Runtime}
    (hresult : construct calls m n part.1 part.2 r = .error .exhausted r') : calls.Exhaust := by
  induction n generalizing part r' with
  | zero => cases h
  | succ n ih =>
    cases hsuper : part.super? (r.table m) with
    | none =>
      rcases construct_of_super?_none calls hsuper with ⟨e, he⟩ | hpart
      · rw [he] at hresult
        cases hresult
      · exact exhaust_of_completePart ((hpart n).symm.trans hresult)
    | some base =>
      rw [Part.ancestor?, hsuper, Option.bind_some] at h
      rw [construct_of_super? hsuper] at hresult
      cases hbase : construct calls m n base.1 base.2 r with
      | ok i r₁ =>
        rw [bind_of_ok hbase] at hresult
        exact exhaust_of_completePart hresult
      | error e r₁ =>
        rw [bind_of_error hbase] at hresult
        cases hresult
        exact ih h hbase

end

/-! ## Instances -/

/-- **When instantiation ends.** Whatever is loaded, the recursion through the superclasses of a
class ends exactly if it ends within one step more than there are classes, as it does where no class
inherits from itself. If it ends, no depth beyond the number of classes changes what becomes of the
instance, and nothing nests too deep but calls of accessors; if it does not end, no depth is
enough. -/
theorem instantiation_ends (calls : Calls) (m : ManagerId) (r : Runtime) {name : String}
    {c : LoadedClass} (hc : (r.table m).get? name = some c) (args : List Value) :
    let table := r.table m
    let part : Part := (c, args)
    (part.Ends table ↔ part.ancestor? table (table.length + 1) = none) ∧
    (∀ n, EndsWithin table n c → part.Ends table) ∧
    (part.Ends table → ∀ depth, table.length < depth →
      instantiate calls depth m name args r = instantiate calls (table.length + 1) m name args r ∧
      ∀ r', instantiate calls depth m name args r = .error .exhausted r' → calls.Exhaust) ∧
    (¬ part.Ends table → ∀ depth, instantiate calls depth m name args r = .error .exhausted r) := by
  intro table part
  have hends : part.Ends table ↔ part.ancestor? table (table.length + 1) = none :=
    Part.ends_iff (Part.loaded_of_get? hc)
  have hconstruct (depth : Nat) :
      instantiate calls depth m name args r = construct calls m depth part.1 part.2 r := by
    unfold instantiate
    rw [bind_of_ok (getRuntime_apply r), hc]
  have hwithin (n : Nat) (h : EndsWithin table n part.1) : part.Ends table :=
    Part.ends_of_endsWithin h
  refine ⟨hends, hwithin, fun h depth hdepth => ?_, fun h depth => ?_⟩
  · have hsame := construct_of_ancestor?_eq_none calls (hends.mp h) hdepth
    rw [hconstruct, hconstruct]
    refine ⟨hsame, fun r' hr' => ?_⟩
    exact exhaust_of_construct (hends.mp h) (hsame.symm.trans hr')
  · rw [hconstruct]
    exact construct_of_ancestor?_ne_none fun hnone => h ⟨depth, hnone⟩

/-- A class with a superclass that has a superclass of its own. -/
def lineage : Module where
  classes := [{ name := "Top" }, { name := "Middle", supertypes := [.named "Top"] },
    { name := "Leaf", supertypes := [.named "Middle"] }]

/-- A runtime with one manager, into which the three classes are loaded. -/
def lineageRuntime : Runtime :=
  ((({} : Runtime).addManager {}).loadModule 0 lineage).2

/-- The three classes are loaded as they are declared. -/
theorem lineageRuntime_eq : lineageRuntime = (({} : Runtime).addManager {}).setTable 0
    (lineage.classes.map fun c => (c.name, { decl := c, record := none, layout := [] })) := by
  rw [lineageRuntime, Runtime.loadModule, Framing.Pipeline.standard_eq]
  rfl

/-- A leaf is made at any depth beyond the number of classes, with both parts above it. -/
theorem instantiation_of_leaf_ends :
    ((lineageRuntime.table 0).get? "Leaf").isSome = true ∧
    ∀ depth, 3 < depth → ∃ i r, instantiate .standard depth 0 "Leaf" [] lineageRuntime =
      .ok i r ∧ r.instances.map (·.cls.decl.name) = ["Top", "Middle", "Leaf"] := by
  let leaf : LoadedClass :=
    { decl := { name := "Leaf", supertypes := [.named "Middle"] }, record := none, layout := [] }
  have hfound : (lineageRuntime.table 0).get? "Leaf" = some leaf := by
    rw [lineageRuntime_eq]
    rfl
  have hlength : (lineageRuntime.table 0).length = 3 := by
    rw [lineageRuntime_eq]
    rfl
  obtain ⟨hends, -, hdepths, -⟩ :=
    instantiation_ends .standard 0 lineageRuntime hfound []
  rw [hlength] at hends hdepths
  -- The path of superclasses leads over the middle to the top, and no further.
  have hpath : Part.ancestor? (lineageRuntime.table 0) 4 (leaf, []) = none := by
    rw [lineageRuntime_eq]
    rfl
  refine ⟨by rw [hfound]; rfl, fun depth hdepth => ?_⟩
  rw [(hdepths (hends.mpr hpath) depth hdepth).1, lineageRuntime_eq]
  exact ⟨_, _, rfl, rfl⟩

/-- A class that inherits from itself. -/
def selfMade : Module where
  classes := [{ name := "A", supertypes := [.named "A"] }]

/-- A runtime with one manager, into which the class is loaded. -/
def selfMadeRuntime : Runtime :=
  ((({} : Runtime).addManager {}).loadModule 0 selfMade).2

/-- The class is loaded as it is declared. -/
theorem selfMadeRuntime_eq : selfMadeRuntime = (({} : Runtime).addManager {}).setTable 0
    (selfMade.classes.map fun c => (c.name, { decl := c, record := none, layout := [] })) := by
  rw [selfMadeRuntime, Runtime.loadModule, Framing.Pipeline.standard_eq]
  rfl

/-- A class that names itself as its superclass is accepted, and no depth is enough to make an
instance of it: the part of the superclass is the part that is to be made. -/
theorem instantiation_never_ends :
    Grammar.parseModule "class A : A \x7b \x7d" = .ok selfMade ∧
    ((({} : Runtime).addManager {}).loadModule 0 selfMade).1.toOption.isSome = true ∧
    ∀ depth, instantiate .standard depth 0 "A" [] selfMadeRuntime =
      .error .exhausted selfMadeRuntime := by
  refine ⟨by decide +kernel, ?_, fun depth => ?_⟩
  · rw [Runtime.loadModule, Framing.Pipeline.standard_eq]
    decide +kernel
  let part : Part :=
    ({ decl := { name := "A", supertypes := [.named "A"] }, record := none, layout := [] }, [])
  have hfound : (selfMadeRuntime.table 0).get? "A" = some part.1 := by
    rw [selfMadeRuntime_eq]
    rfl
  have hsuper : part.super? (selfMadeRuntime.table 0) = some part := by
    rw [selfMadeRuntime_eq]
    rfl
  have hup : part.ancestor? (selfMadeRuntime.table 0) 1 = some part := by
    rw [Part.ancestor?, hsuper]
    rfl
  have hlong : part.ancestor? (selfMadeRuntime.table 0) depth ≠ none :=
    Part.ancestor?_ne_none_of_repeated Nat.zero_lt_one rfl hup ⟨rfl, rfl⟩ depth
  unfold instantiate
  rw [bind_of_ok (getRuntime_apply _), hfound]
  exact construct_of_ancestor?_ne_none hlong

end VersionedObjects.Dynamic
