import VersionedObjects.Proofs.Dynamic.SideBySide

/-!
# Accessors of framed and plain instances

Inside a writable frame every read and write of a property goes alike for a framed and a plain
instance. The accessors, which framing has redirected, evaluate to the same values, make the same
assignments and call each other in the same way, to the same depth. So sequences of reads and
writes have the same replies.
-/

namespace VersionedObjects.Dynamic

open Declaration Framing
open Store (FrameId ManagerId)

/-! ## What goes alike -/

/-- Operands that are the same in both runtimes. -/
inductive Operand.Same : Operand → Operand → Prop where
  | value (v : Value) : Same (.value v) (.value v)
  | this : Same .this .this

/-- Calls that go alike. -/
structure Calls.Alike (R : Runtime → Runtime → Prop) (calls plain : Calls) : Prop where
  get : ∀ i name, Dynamic.Alike R Eq (calls.get i name) (plain.get i name)
  set : ∀ i name value, Dynamic.Alike R Eq (calls.set i name value) (plain.set i name value)

/-! ## Stored values -/

section

variable {m : ManagerId} {f : FrameId} {cast : Cast} {calls plain : Calls} {sc : Scope}
  {name : String}

/-- What stands for `field` goes like `field`. -/
structure Backs (m : ManagerId) (f : FrameId) (cast : Cast) (calls plain : Calls) (sc : Scope)
    (read write : Expr) : Prop where
  eval : ∀ locals, Alike (Mirrors m f cast) Operand.Same (eval calls sc locals read)
    (eval plain sc locals .backing)
  assign : ∀ locals value, Alike (Mirrors m f cast) Eq (assign calls sc locals write value)
    (assign plain sc locals .backing value)

/-- In an accessor the property whose storage is meant is that of the accessor. -/
theorem backingProperty_apply (hproperty : sc.property = some name) (r : Runtime) :
    sc.backingProperty r = .ok name r := by
  unfold Scope.backingProperty
  rw [hproperty]
  rfl

/-- The storage of a property that is stored is its value. -/
theorem backing_of_some (hproperty : sc.property = some name) {r : Runtime} {value : Value}
    (h : (r.inst sc.self).fields.get? name = some value) (locals : Association Value) :
    eval calls sc locals .backing r = .ok (.value value) r := by
  rw [eval, bind_of_ok (backingProperty_apply hproperty r), bind_of_ok (inst_apply sc r), h]
  rfl

/-- The storage of a property that is not stored is reported to be missing. -/
theorem backing_of_none (hproperty : sc.property = some name) {r : Runtime}
    (h : (r.inst sc.self).fields.get? name = none) (locals : Association Value) :
    eval calls sc locals .backing r = sc.noStoredValue name r := by
  rw [eval, bind_of_ok (backingProperty_apply hproperty r), bind_of_ok (inst_apply sc r), h]

/-- To assign the storage of a property that is stored stores the value. -/
theorem assign_backing_of_some (calls : Calls) (hproperty : sc.property = some name) {r : Runtime}
    (h : ((r.inst sc.self).fields.get? name).isSome = true) (locals : Association Value)
    (value : Value) :
    ∃ r', assign calls sc locals .backing value r = .ok locals r' ∧
      Stores r' r sc.self name value := by
  obtain ⟨r', hr', hstores⟩ := setField_of_has h value
  refine ⟨r', ?_, hstores⟩
  rw [assign, bind_of_ok (backingProperty_apply hproperty r), bind_of_ok hr']
  rfl

/-- To assign the storage of a property that is not stored is reported. -/
theorem assign_backing_of_none (hproperty : sc.property = some name) {r : Runtime}
    (h : (r.inst sc.self).fields.get? name = none) (locals : Association Value) (value : Value) :
    assign calls sc locals .backing value r = sc.noStoredValue name r := by
  rw [assign, bind_of_ok (backingProperty_apply hproperty r),
    bind_of_ok (setField_of_not_has h value)]
  rfl

/-- That there is no stored value is reported alike. -/
theorem alike_noStoredValue {α β : Type} {R : Runtime → Runtime → Prop} {P : α → β → Prop}
    (sc : Scope) (name : String) : Alike R P (sc.noStoredValue name) (sc.noStoredValue name) :=
  fun _ _ hrs => .error (.eval _ _) hrs

/-- A property without a slot keeps its stored value. -/
theorem backs_unframed (hproperty : sc.property = some name)
    (hslot : (cast sc.self).cls.slot? name = none) :
    Backs m f cast calls plain sc .backing .backing := by
  refine ⟨fun locals r s h => ?_, fun locals value r s h => ?_⟩
  · have hsame := h.unframed sc.self name hslot
    cases hs : (s.inst sc.self).fields.get? name with
    | none =>
      rw [backing_of_none hproperty (hsame.trans hs), backing_of_none hproperty hs]
      exact alike_noStoredValue sc name r s h
    | some value =>
      rw [backing_of_some hproperty (hsame.trans hs), backing_of_some hproperty hs]
      exact .ok (.value value) h
  · have hsame := h.unframed sc.self name hslot
    cases hs : (s.inst sc.self).fields.get? name with
    | none =>
      rw [assign_backing_of_none hproperty (hsame.trans hs),
        assign_backing_of_none hproperty hs]
      exact alike_noStoredValue sc name r s h
    | some old =>
      have hhas : ((s.inst sc.self).fields.get? name).isSome = true := by rw [hs]; rfl
      obtain ⟨r', hr', hstores⟩ :=
        assign_backing_of_some calls hproperty (hsame ▸ hhas) locals value
      obtain ⟨s', hs', hplain⟩ :=
        assign_backing_of_some plain hproperty hhas locals value
      rw [hr', hs']
      exact .ok rfl (h.stores_unframed hslot hstores hplain hhas)

/-- A property with a slot has its value in the record. -/
theorem backs_framed (hcast : cast.Sound) (hproperty : sc.property = some name)
    (hname : name ≠ recordField) {k : Nat} (hslot : (cast sc.self).cls.slot? name = some k)
    (recordType : TypeExpr) :
    Backs m f cast calls plain sc (readableField recordType name)
      (writableField recordType name) := by
  refine ⟨fun locals r s h => ?_, fun locals value r s h => ?_⟩
  · obtain ⟨o, slots, ho, hshows, hvalues⟩ := h.exists_object hcast hslot
    obtain ⟨record, w, hread, rfl, hframes, hcurrent, hobjects⟩ := h.inside.readable hshows
    rw [eval_readableField ((h.object _).trans ho) hname (h.cls _ ▸ hslot) recordType hread,
      backing_of_some hproperty (hvalues name k hslot)]
    exact .ok (.value _) (h.of_world hframes hcurrent hobjects)
  · obtain ⟨o, slots, ho, hshows, hvalues⟩ := h.exists_object hcast hslot
    obtain ⟨record, w, hwrite, hinside, hafter, hothers⟩ :=
      h.inside.write hshows (·.store k value)
    have hhas : ((s.inst sc.self).fields.get? name).isSome = true := by
      rw [hvalues name k hslot]
      rfl
    obtain ⟨s', hs', hplain⟩ :=
      assign_backing_of_some plain hproperty hhas locals value
    rw [assign_writableField ((h.object _).trans ho) (h.cls _ ▸ hslot) recordType hwrite, hs']
    exact .ok rfl (h.stores_framed hcast hslot ho hinside hafter hothers hvalues hplain)

/-! ## Expressions -/

variable {read write : Expr} {locals : Association Value}

/-- The same operands have the same values. -/
theorem Operand.Same.toValue {R : Runtime → Runtime → Prop} {a b : Operand} (h : a.Same b)
    (e e' : Expr) : Alike R Eq (a.toValue e) (b.toValue e') := by
  cases h with
  | value v => exact alike_pure rfl
  | this => exact alike_fail _ _

mutual

/-- By induction on the expression, of which only `field` is replaced. -/
theorem eval_redirect (hcast : cast.Sound) (hcalls : calls.Alike (Mirrors m f cast) plain)
    (hbacks : Backs m f cast calls plain sc read write) (locals : Association Value) :
    (e : Expr) → e.isSourced = true →
      Alike (Mirrors m f cast) Operand.Same (eval calls sc locals (redirect read e))
        (eval plain sc locals e)
  | .literal value, _ => by
    rw [redirect, eval, eval]
    exact alike_pure (.value _)
  | .this, _ => by
    rw [redirect, eval, eval]
    exact alike_pure .this
  | .name id, _ => by
    rw [redirect, eval, eval]
    exact alike_orFail.bind_eq fun _ => alike_pure (.value _)
  | .backing, _ => by
    rw [redirect]
    exact hbacks.eval locals
  | .list items, hitems => by
    rw [redirect, eval, eval]
    exact (evalAll_redirect hcast hcalls hbacks locals items hitems).bind_eq fun _ =>
      alike_pure (.value _)
  | .member target id, hmember => by
    rw [Expr.isSourced, Bool.and_eq_true, bne_iff_ne] at hmember
    rw [redirect, eval, eval]
    refine (eval_redirect hcast hcalls hbacks locals target hmember.1).bind fun a b hab => ?_
    rw [if_neg hmember.2, if_neg hmember.2]
    intro r s h
    cases hab with
    | value v => exact alike_fail _ _ r s h
    | this =>
      have hproperty := h.property? hcast sc.self id
      have hget := (hcalls.get sc.self id).bind_eq fun a =>
        alike_pure (R := Mirrors m f cast) (Operand.Same.value a)
      dsimp only
      rw [bind_of_ok (inst_apply sc r), bind_of_ok (inst_apply sc s)]
      cases hp : (s.inst sc.self).cls.decl.property? id with
      | none =>
        obtain ⟨hr, hs⟩ := h.unstored sc.self id (h.plain_cls sc.self ▸ hp)
        rw [hr, hs]
        exact hget r s h
      | some p =>
        rw [hp] at hproperty
        rw [hproperty]
        cases (r.inst sc.self).fields.get? id <;> cases (s.inst sc.self).fields.get? id <;>
          exact hget r s h

/-- By induction on the expressions. -/
theorem evalAll_redirect (hcast : cast.Sound) (hcalls : calls.Alike (Mirrors m f cast) plain)
    (hbacks : Backs m f cast calls plain sc read write) (locals : Association Value) :
    (items : List Expr) → Expr.isSourcedList items = true →
      Alike (Mirrors m f cast) Eq (evalAll calls sc locals (redirectAll read items))
        (evalAll plain sc locals items)
  | [], _ => by
    rw [redirectAll, evalAll, evalAll]
    exact alike_pure rfl
  | item :: rest, hitems => by
    rw [Expr.isSourcedList, Bool.and_eq_true] at hitems
    rw [redirectAll, evalAll, evalAll]
    refine (eval_redirect hcast hcalls hbacks locals item hitems.1).bind fun a b hab => ?_
    refine (hab.toValue _ _).bind_eq fun v => ?_
    refine (evalAll_redirect hcast hcalls hbacks locals rest hitems.2).bind_eq fun vs => ?_
    exact alike_pure rfl

end

/-- A redirected expression has the value in the framed runtime that the expression has in the plain
one. -/
theorem evalValue_redirect (hcast : cast.Sound) (hcalls : calls.Alike (Mirrors m f cast) plain)
    (hbacks : Backs m f cast calls plain sc read write) (locals : Association Value) {e : Expr}
    (he : e.isSourced = true) :
    Alike (Mirrors m f cast) Eq (evalValue calls sc locals (redirect read e))
      (evalValue plain sc locals e) :=
  (eval_redirect hcast hcalls hbacks locals e he).bind fun _ _ hab => hab.toValue _ _

/-! ## Statements -/

/-- An assignment to anything but `field`. -/
theorem assign_redirect (hcast : cast.Sound) (hcalls : calls.Alike (Mirrors m f cast) plain)
    (hbacks : Backs m f cast calls plain sc read write) (locals : Association Value)
    {target : Expr} (htarget : target.isSourced = true) (hne : target ≠ .backing)
    (value : Value) :
    Alike (Mirrors m f cast) Eq (assign calls sc locals (redirect read target) value)
      (assign plain sc locals target value) := by
  cases target with
  | name id =>
    rw [redirect, assign, assign]
    exact alike_pure rfl
  | member inner id =>
    rw [Expr.isSourced, Bool.and_eq_true] at htarget
    rw [redirect, assign, assign]
    refine (eval_redirect hcast hcalls hbacks locals inner htarget.1).bind fun a b hab => ?_
    intro r s h
    cases hab with
    | value v => exact alike_fail _ _ r s h
    | this =>
      dsimp only
      rw [bind_of_ok (inst_apply sc r), bind_of_ok (inst_apply sc s)]
      have hsome : ((r.inst sc.self).cls.decl.property? id).isSome =
          ((s.inst sc.self).cls.decl.property? id).isSome := by
        rw [h.property? hcast, Option.isSome_map]
      rw [hsome]
      split
      · exact (hcalls.set sc.self id value).bind_eq (fun _ => alike_pure rfl) r s h
      · next hnone =>
        have hproperty : (s.inst sc.self).cls.decl.property? id = none := by simpa using hnone
        obtain ⟨hr, hs⟩ := h.unstored sc.self id (h.plain_cls sc.self ▸ hproperty)
        rw [bind_of_ok (setField_of_not_has hr value), bind_of_ok (setField_of_not_has hs value)]
        exact alike_fail _ _ r s h
  | backing => exact absurd rfl hne
  | literal _ | list _ | this =>
    rw [redirect, assign, assign]
    · exact alike_fail _ _
    all_goals intros; contradiction
  | readable _ _ | writable _ _ | cast _ _ | newRecord _ | newChain _ | firstRecord _
  | prependRecord _ _ => cases htarget

/-- An assignment to anything but the storage is redirected on both sides. -/
theorem redirectStmt_assign {target value : Expr} (hne : target ≠ .backing) :
    redirectStmt read write (.assign target value) =
      .assign (redirect read target) (redirect read value) := by
  cases target <;> first | rfl | exact absurd rfl hne

/-- By cases on the statement, where an assignment to `field` goes to the writable record. -/
theorem exec_redirect (hcast : cast.Sound) (hcalls : calls.Alike (Mirrors m f cast) plain)
    (hbacks : Backs m f cast calls plain sc read write) (locals : Association Value)
    {stmt : Stmt} (hstmt : stmt.isSourced = true) :
    Alike (Mirrors m f cast) Eq (exec calls sc locals (redirectStmt read write stmt))
      (exec plain sc locals stmt) := by
  cases stmt with
  | «return» e =>
    rw [redirectStmt, exec, exec]
    exact (evalValue_redirect hcast hcalls hbacks locals hstmt).bind_eq fun _ => alike_pure rfl
  | expr e =>
    rw [redirectStmt, exec, exec]
    exact (eval_redirect hcast hcalls hbacks locals e hstmt).bind fun _ _ _ => alike_pure rfl
  | assign target e =>
    rw [Stmt.isSourced, Bool.and_eq_true] at hstmt
    by_cases hbacking : target = .backing
    · subst hbacking
      rw [redirectStmt, exec, exec]
      refine (evalValue_redirect hcast hcalls hbacks locals hstmt.2).bind_eq fun value => ?_
      exact (hbacks.assign locals value).bind_eq fun _ => alike_pure rfl
    · rw [redirectStmt_assign hbacking, exec, exec]
      refine (evalValue_redirect hcast hcalls hbacks locals hstmt.2).bind_eq fun value => ?_
      exact (assign_redirect hcast hcalls hbacks locals hstmt.1 hbacking value).bind_eq fun _ =>
        alike_pure rfl
  | notifyCreated => cases hstmt

/-- By induction on the statements. -/
theorem run_redirect (hcast : cast.Sound) (hcalls : calls.Alike (Mirrors m f cast) plain)
    (hbacks : Backs m f cast calls plain sc read write) (locals : Association Value)
    {body : List Stmt} (hbody : body.all (·.isSourced) = true) :
    Alike (Mirrors m f cast) Eq (run calls sc locals (body.map (redirectStmt read write)))
      (run plain sc locals body) := by
  induction body generalizing locals with
  | nil => exact alike_pure rfl
  | cons stmt rest ih =>
    rw [List.all_cons, Bool.and_eq_true] at hbody
    rw [List.map_cons, run, run]
    refine (exec_redirect hcast hcalls hbacks locals hbody.1).bind_eq fun result => ?_
    match result with
    | (some value, _) => exact alike_pure rfl
    | (none, locals) => exact ih locals hbody.2

/-! ## Properties -/

/-- Inside the frame every instance is visible. -/
theorem Mirrors.ensureVisible {r s : Runtime} (h : Mirrors m f cast r s) (i : InstanceId) :
    Dynamic.ensureVisible (r.inst i) r = .ok () r ∧
      Dynamic.ensureVisible (s.inst i) s = .ok () s := by
  refine ⟨?_, ?_⟩
  · unfold Dynamic.ensureVisible
    rw [h.object]
    cases ho : (cast i).object with
    | none => rfl
    | some o =>
      obtain ⟨slots, hshows, -⟩ := h.slots i o ho
      have hget : (getThe Runtime : EvalM Runtime) r = .ok r r := rfl
      dsimp only
      rw [bind_of_ok hget, h.inside.hasVisibleRecord hshows]
      rfl
  · unfold Dynamic.ensureVisible
    rw [h.plain_object]
    rfl

/-- What stands for `field` in the accessors of a property. -/
theorem exists_backs (calls plain : Calls) (hcast : cast.Sound) {i : InstanceId} {p : Property}
    (hp : p ∈ (cast i).plain.decl.properties) :
    ∃ read write,
      Backs m f cast calls plain { self := i, property := some p.name } read write ∧
      RedirectedBy read write (hostProperty (cast i).recordType (cast i).framed p) p := by
  have hcounterpart := hcast.counterpart i
  cases hslot : (cast i).cls.slot? p.name with
  | none =>
    refine ⟨_, _, backs_unframed rfl hslot, ?_⟩
    rw [hcounterpart.hostProperty_of_slot?_none hslot]
    exact redirectedBy_self p
  | some k =>
    have hname := (isSourced_accessors (hcounterpart.plain_sourced.properties p hp)).1
    refine ⟨_, _, backs_framed hcast rfl hname hslot (cast i).recordType, ?_⟩
    rw [hcounterpart.hostProperty_of_slot? hslot]
    exact redirectedBy_redirectProperty _ p

/-- A read runs the getters of both classes, or goes on to the superclass. -/
theorem alike_getProperty (hcast : cast.Sound) (hcalls : calls.Alike (Mirrors m f cast) plain)
    (i : InstanceId) (name : String) :
    Alike (Mirrors m f cast) Eq (getProperty calls i name) (getProperty plain i name) := by
  intro r s h
  have hr : (getThe Runtime : EvalM Runtime) r = .ok r r := rfl
  have hs : (getThe Runtime : EvalM Runtime) s = .ok s s := rfl
  have hproperty := h.property? hcast i name
  unfold getProperty
  rw [bind_of_ok hr, bind_of_ok hs]
  dsimp only
  rw [hproperty]
  cases hp : (s.inst i).cls.decl.property? name with
  | none =>
    rw [Option.map_none, h.base, h.plain_base]
    cases (cast i).base with
    | none => exact alike_fail _ _ r s h
    | some base => exact hcalls.get base name r s h
  | some p =>
    obtain ⟨hmem, rfl⟩ := mem_of_property? hp
    rw [h.plain_cls] at hmem
    obtain ⟨read, write, hbacks, hredirected⟩ :=
      exists_backs (m := m) (f := f) calls plain hcast hmem
    obtain ⟨-, hsourced, -⟩ :=
      isSourced_accessors ((hcast.counterpart i).plain_sourced.properties p hmem)
    obtain ⟨hvisible, hplain⟩ := h.ensureVisible i
    rw [Option.map_some]
    dsimp only
    rw [bind_of_ok hvisible, bind_of_ok hplain, hredirected.getter]
    refine (run_redirect hcast hcalls hbacks [] hsourced).bind_eq (fun result => ?_) r s h
    cases result with
    | none => exact alike_fail _ _
    | some value => exact alike_pure rfl

/-- A write makes the same checks on both sides, of which the frame passes those that only framed
classes make, and runs the setters or goes on to the superclass. -/
theorem alike_setProperty (hcast : cast.Sound) (hcalls : calls.Alike (Mirrors m f cast) plain)
    (i : InstanceId) (name : String) (value : Value) :
    Alike (Mirrors m f cast) Eq (setProperty calls i name value)
      (setProperty plain i name value) := by
  intro r s h
  have hr : (getThe Runtime : EvalM Runtime) r = .ok r r := rfl
  have hs : (getThe Runtime : EvalM Runtime) s = .ok s s := rfl
  have hproperty := h.property? hcast i name
  unfold setProperty
  rw [bind_of_ok hr, bind_of_ok hs]
  dsimp only
  rw [hproperty]
  cases hp : (s.inst i).cls.decl.property? name with
  | none =>
    rw [Option.map_none, h.base, h.plain_base]
    cases (cast i).base with
    | none => exact alike_fail _ _ r s h
    | some base => exact hcalls.set base name value r s h
  | some p =>
    obtain ⟨hmem, rfl⟩ := mem_of_property? hp
    rw [h.plain_cls] at hmem
    obtain ⟨read, write, hbacks, hredirected⟩ :=
      exists_backs (m := m) (f := f) calls plain hcast hmem
    obtain ⟨-, -, hsourced⟩ :=
      isSourced_accessors ((hcast.counterpart i).plain_sourced.properties p hmem)
    obtain ⟨hvisible, hplain⟩ := h.ensureVisible i
    have hslot : ((s.inst i).cls.slot? p.name).isSome = false := by
      rw [h.plain_cls, (hcast.counterpart i).slot?_plain]
      rfl
    rw [Option.map_some]
    dsimp only
    rw [hredirected.mutable, hredirected.type]
    cases hmutable : p.mutable with
    | false => exact .error (.eval _ _) h
    | true =>
      cases value.conforms p.type with
      | false => exact .error (.eval _ _) h
      | true =>
        simp only [Bool.not_true, Bool.false_eq_true, if_false]
        rw [bind_of_ok hr, bind_of_ok hs, hslot, h.inside.current]
        simp only [Option.isNone_some, Bool.and_false, Bool.false_and, Bool.false_eq_true,
          if_false]
        rw [bind_of_ok hvisible, bind_of_ok hplain, hredirected.setter hmutable,
          hredirected.param hmutable]
        exact (run_redirect hcast hcalls hbacks _ hsourced).bind_eq (fun _ => alike_pure rfl) r s h

/-- By induction on the depth to which calls may nest. -/
theorem alike_ofDepth (hcast : cast.Sound) (depth : Nat) :
    (Calls.ofDepth depth).Alike (Mirrors m f cast) (Calls.ofDepth depth) := by
  induction depth with
  | zero => exact ⟨fun _ _ => alike_exhausted, fun _ _ _ => alike_exhausted⟩
  | succ depth ih => exact ⟨alike_getProperty hcast ih, alike_setProperty hcast ih⟩

end

/-! ## Sequences of reads and writes -/

/-- A read or a write of a property of an instance. -/
inductive Request where
  | get (i : InstanceId) (property : String)
  | set (i : InstanceId) (property : String) (value : Value)

/-- How a request ends. -/
inductive Reply where
  /-- A read gives the value, a write none. -/
  | ok (value : Option Value)
  | error
  /-- The store is misused. -/
  | stopped
  /-- The calls nest too deep. -/
  | exhausted

/-- Performs a request, with calls up to a depth. -/
def Request.perform (depth : Nat) : Request → EvalM (Option Value)
  | .get i property => do return some (← (Calls.ofDepth depth).get i property)
  | .set i property value => do
    (Calls.ofDepth depth).set i property value
    return none

/-- The reply of a result. -/
def Reply.ofResult : EStateM.Result Failure Runtime (Option Value) → Reply
  | .ok value _ => .ok value
  | .error (.eval _) _ => .error
  | .error (.violation _) _ => .stopped
  | .error .exhausted _ => .exhausted

/-- The replies to requests in order; what a failed request did before it failed is kept. -/
def replies (depth : Nat) : Runtime → List Request → List Reply
  | _, [] => []
  | r, request :: rest =>
    let result := request.perform depth r
    Reply.ofResult result :: replies depth (stateOf result) rest
where
  /-- The runtime after a result. -/
  stateOf : EStateM.Result Failure Runtime (Option Value) → Runtime
    | .ok _ r | .error _ r => r

variable {m : ManagerId} {f : FrameId} {cast : Cast} {r s : Runtime}

/-- Every request is performed alike in both runtimes. -/
theorem alike_perform (hcast : cast.Sound) (depth : Nat) (request : Request) :
    Alike (Mirrors m f cast) Eq (request.perform depth) (request.perform depth) := by
  have hcalls := alike_ofDepth (m := m) (f := f) hcast depth
  cases request with
  | get i property => exact (hcalls.get i property).bind_eq fun _ => alike_pure rfl
  | set i property value => exact (hcalls.set i property value).bind_eq fun _ => alike_pure rfl

/-- Results that match give the same reply, and none that stops, and lead to related runtimes. -/
theorem Matches.reply_eq {R : Runtime → Runtime → Prop}
    {x y : EStateM.Result Failure Runtime (Option Value)} (h : Matches R Eq x y) :
    Reply.ofResult x = Reply.ofResult y ∧ Reply.ofResult x ≠ .stopped ∧
      R (replies.stateOf x) (replies.stateOf y) := by
  cases h with
  | ok hvalue hruntimes =>
    subst hvalue
    exact ⟨rfl, nofun, hruntimes⟩
  | error hfailures hruntimes => cases hfailures <;> exact ⟨rfl, nofun, hruntimes⟩

/-- By induction on the requests: both runtimes give the same replies, and no request misuses the
store. -/
theorem Mirrors.replies_eq (hcast : cast.Sound) (h : Mirrors m f cast r s) (depth : Nat)
    (requests : List Request) :
    replies depth r requests = replies depth s requests ∧
      .stopped ∉ replies depth r requests := by
  induction requests generalizing r s with
  | nil => exact ⟨rfl, nofun⟩
  | cons request rest ih =>
    obtain ⟨hreply, hstopped, hnext⟩ := (alike_perform hcast depth request r s h).reply_eq
    obtain ⟨hrest, hnever⟩ := ih hnext
    rw [replies, replies, ← hreply, ← hrest]
    refine ⟨rfl, fun hmem => ?_⟩
    rcases List.mem_cons.mp hmem with hmem | hmem
    · exact hstopped hmem.symm
    · exact hnever hmem

end VersionedObjects.Dynamic
