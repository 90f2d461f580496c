import VersionedObjects.Proofs.Emission.EmittedModules
import VersionedObjects.Proofs.Emission.Rendering

/-!
# Every framed source is emitted

A source whose classes are not marked as framed by their supertypes and whose initializers do
without `field` is emitted whenever it is framed without errors: hosts have their record types in
the module and build their chain first, record types create and assign, and accessors assign what
has a place, as the parser saw to it and redirection keeps it. Main statement:
`emission_succeeds`.
-/

namespace VersionedObjects.Emission

open Declaration
open Framing (chainExpr hostOf recordOf)
open Framing.Pipeline (standard usual_standard)
open Framing.Rule (firstFrameRecordMethod prependFrameRecordMethod redirectProperty)

/-! ## Plain classes -/

section

variable {config : EmitConfig} {m : Module} {c : ClassDecl}

/-- A plain class is emitted. -/
theorem succeeds_plainItems (hc : Renderable c) (hinitializers : c.initializers = []) :
    Succeeds (plainItems config m c) := by
  have hconstructor {s : Scope} {base : Option ClassDecl} {stored : List Parameter} :
      Succeeds (plainConstructor c stored base s) := by
    unfold plainConstructor
    rw [hc.constructors, hinitializers]
    exact (succeeds_mapM fun _ _ => succeeds_superArgs.map _).bind fun _ =>
      (succeeds_storedLines hc stored).bind fun _ => (succeeds_ok []).map _
  exact hconstructor.bind fun _ => (succeeds_members hc _).map _

end

/-! ## Record types -/

/-- Both methods of a record type have code. -/
theorem succeeds_recordItems (config : EmitConfig) (d : Framing.Draft) (ps : List Property) :
    Succeeds (recordItems config (recordOf d ps)) := by
  refine Succeeds.map (succeeds_mapM fun method hmethod => ?_) _
  have hmethod : method ∈ [Framing.Rule.createMethod d.recordType, Framing.Rule.assignMethod d] :=
    List.mem_of_mem_filter hmethod
  rw [List.mem_cons, List.mem_singleton] at hmethod
  rcases hmethod with rfl | rfl
  · exact (succeeds_bodyLines (by simp [Framing.Rule.createMethod, Stmt.hasPlace])
      (by simp [Framing.Rule.createMethod, Stmt.usesBacking, Expr.usesBacking])).map _
  · refine Succeeds.map (succeeds_bodyLines ?_ ?_) _
    all_goals
      intro stmt hstmt
      obtain ⟨name, -, rfl⟩ := List.mem_map.mp hstmt
    · rfl
    · intro h
      cases h

/-! ## Hosts -/

/-- What the emission of a framed class needs: its first initializer block starts with the chain,
what follows has code outside accessors, and its methods are the operations on the chain. -/
structure RenderableHost (c : ClassDecl) (recordType : TypeExpr) : Prop extends Renderable c where
  chain : ∃ rest blocks,
    c.initializers = (.assign chainExpr (.newChain (.newRecord recordType)) :: rest) :: blocks ∧
      ∀ stmt ∈ rest ++ blocks.flatten, stmt.hasPlace = true ∧ stmt.usesBacking = false
  operations : ∀ method ∈ c.methods,
    method = firstFrameRecordMethod recordType ∨ method = prependFrameRecordMethod recordType
  field : ∃ field, c.field? recordField = some field ∧ field.type = recordType

section

variable {config : EmitConfig} {m : Module} {c : ClassDecl} {recordType : TypeExpr} {s : Scope}

/-- The constructors of a host are emitted. -/
theorem succeeds_framedConstructors (hc : RenderableHost c recordType) (stored : List Parameter)
    (base : Option ClassDecl) : Succeeds (framedConstructors c stored base s) := by
  obtain ⟨rest, blocks, hinitializers, hstmts⟩ := hc.chain
  have hbody {s : Scope} : Succeeds (stmtLines s ((rest ++ blocks.flatten) ++ [])) := by
    rw [List.append_nil]
    exact succeeds_stmtLines (fun stmt hstmt => (hstmts stmt hstmt).1) fun stmt hstmt huses =>
      absurd ((hstmts stmt hstmt).2.symm.trans huses) (by decide)
  have hstart {s : Scope} : chainStart s c =
      .ok (typeText recordType ++ "::default()", rest ++ blocks.flatten) := by
    rw [chainStart, hinitializers]
    rfl
  unfold framedConstructors
  dsimp only
  rw [hc.constructors, hstart]
  exact (succeeds_mapM fun _ _ => succeeds_superArgs.map _).bind fun _ =>
    (succeeds_storedLines hc.toRenderable stored).bind fun _ => hbody.map _

/-- Both operations on the chain have code. -/
theorem succeeds_framedFunction {name : String} {method : Method}
    (hmethod : method = firstFrameRecordMethod recordType ∨
      method = prependFrameRecordMethod recordType) : Succeeds (framedFunction s name method) := by
  rcases hmethod with rfl | rfl
  · have hname : (firstFrameRecordMethod recordType).name = firstFrameRecord := rfl
    rw [framedFunction, if_pos hname]
    exact (succeeds_exprText s chainExpr nofun).map _
  · have hname : (prependFrameRecordMethod recordType).name = prependFrameRecord := rfl
    have hother : ¬ prependFrameRecord = firstFrameRecord := by decide
    rw [framedFunction, hname, if_neg hother, if_pos rfl]
    exact (succeeds_exprText s (.prependRecord chainExpr (.name "record")) nofun).map _

/-- A host is emitted, if its record type is in the module. -/
theorem succeeds_framedItems (hc : RenderableHost c recordType)
    (hrecord : (m.class? recordType.name).isSome = true) : Succeeds (framedItems config m c) := by
  obtain ⟨record, hrecord⟩ := Option.isSome_iff_exists.mp hrecord
  obtain ⟨field, hfield, rfl⟩ := hc.field
  unfold framedItems
  simp only [hfield, Option.map_some, Option.getD_some, hrecord]
  refine (succeeds_framedConstructors hc _ _).bind fun _ =>
    (succeeds_members hc.toRenderable _).bind fun _ => Succeeds.map (succeeds_mapM ?_) _
  exact fun method hmethod =>
    succeeds_framedFunction (hc.operations method (List.mem_of_mem_filter hmethod))

end

/-! ## What framing makes -/

section

variable {c : ClassDecl} {recordType : TypeExpr} {ps : List Property}

/-- Where `field` is assigned a member is, once it is redirected. -/
theorem hasPlace_redirectStmt {read write : Expr} (hwrite : Grammar.isAssignable write = true)
    {stmt : Stmt} (h : stmt.hasPlace = true) :
    (Framing.redirectStmt read write stmt).hasPlace = true := by
  cases stmt with
  | assign target value =>
    cases target with
    | backing => exact hwrite
    | name | member => rfl
    | _ => cases h
  | _ => rfl

/-- The assignments of a redirected property have places. -/
theorem hasPlaces_redirectProperty {p : Property} (h : p.HasPlaces) :
    (redirectProperty recordType p).HasPlaces := by
  have hbody {accessor : Accessor} (h : ∀ stmt ∈ accessor.body, stmt.hasPlace = true) :
      ∀ stmt ∈ accessor.body.map (Framing.redirectStmt (Framing.readableField recordType p.name)
        (Framing.writableField recordType p.name)), stmt.hasPlace = true := by
    intro stmt hstmt
    obtain ⟨old, hold, rfl⟩ := List.mem_map.mp hstmt
    exact hasPlace_redirectStmt rfl (h old hold)
  obtain ⟨name, type, mutable, initializer, getter, setter⟩ := p
  constructor
  · intro accessor haccessor
    obtain rfl := Option.some.inj haccessor
    cases getter with
    | none => exact List.forall_mem_singleton.mpr rfl
    | some getter => exact hbody (h.getter getter rfl)
  · intro accessor haccessor
    cases mutable with
    | false => exact h.setter accessor haccessor
    | true =>
      obtain rfl := Option.some.inj haccessor
      cases setter with
      | none => exact List.forall_mem_singleton.mpr rfl
      | some setter => exact hbody (h.setter setter rfl)

/-- Every property of a host is one of its class or a redirected one. -/
theorem Renderable.hostOf (h : Renderable c) (recordType : TypeExpr) (ps : List Property) :
    Renderable (hostOf c recordType ps) where
  places q hq := by
    obtain ⟨p, hp, rfl | rfl⟩ := Framing.Rule.mem_changeFirsts hq
    · exact h.places q hp
    · exact hasPlaces_redirectProperty ⟨(h.places p hp).getter, (h.places p hp).setter⟩
  initializers q hq e he := by
    obtain ⟨p, hp, rfl | rfl⟩ := Framing.Rule.mem_changeFirsts hq
    · exact h.initializers q hp e he
    · cases he
  constructors := h.constructors
  methods := by
    refine List.forall_mem_append.mpr ⟨h.methods, fun method hmethod => ?_⟩
    have hmethod := List.mem_of_mem_filter hmethod
    rw [List.mem_cons, List.mem_singleton] at hmethod
    rcases hmethod with rfl | rfl <;> rfl

/-- The stores into the first record come from initializers of the class. -/
theorem hasPlace_initialStore (h : Renderable c) (hps : ∀ p ∈ ps, p ∈ c.properties) :
    ∀ stmt ∈ ps.flatMap (Framing.Rule.initialStore recordType),
      stmt.hasPlace = true ∧ stmt.usesBacking = false := by
  intro stmt hstmt
  obtain ⟨p, hp, hstmt⟩ := List.mem_flatMap.mp hstmt
  obtain ⟨e, he, rfl⟩ := Option.map_eq_some_iff.mp (Option.mem_toList.mp hstmt)
  exact ⟨rfl, h.initializers p (hps p hp) e he⟩

/-- The host of a class that declares properties only. -/
theorem Renderable.renderableHost (h : Renderable c) (hc : c.Sourced)
    (hps : ∀ p ∈ ps, p ∈ c.properties) :
    RenderableHost (Framing.hostOf c recordType ps) recordType where
  toRenderable := h.hostOf recordType ps
  chain := by
    refine ⟨ps.flatMap (Framing.Rule.initialStore recordType) ++ [.notifyCreated], c.initializers,
      rfl, ?_⟩
    rw [hc.initializers, List.flatten_nil, List.append_nil, List.forall_mem_append,
      List.forall_mem_singleton]
    exact ⟨hasPlace_initialStore h hps, rfl, rfl⟩
  operations method hmethod := by
    have hmethod : method ∈ c.methods ++ Framing.missingOperations c recordType := hmethod
    rw [hc.methods, List.nil_append] at hmethod
    simpa using List.mem_of_mem_filter hmethod
  field := by
    refine ⟨{ name := recordField, type := recordType, isHidden := true }, ?_, rfl⟩
    rw [ClassDecl.field?, Framing.hostOf, hc.fields]
    rfl

end

/-! ## Sources -/

/-- A well-named assignment has a place. -/
theorem hasPlace_of_wellNamed {stmt : Stmt} (h : stmt.WellNamed) : stmt.hasPlace = true := by
  cases stmt with
  | assign target value => exact h.2.2.1
  | _ => rfl

/-- The class of a source, as it stands. -/
theorem renderable_of_sourced {c : ClassDecl} (hc : c.Sourced) (hnamed : c.WellNamed)
    (hfree : ∀ q ∈ c.properties, ∀ e ∈ q.initializer, e.usesBacking = false) : Renderable c where
  places p hp :=
    { getter := fun getter hgetter stmt hstmt =>
        hasPlace_of_wellNamed (((hnamed.properties p hp).getter getter hgetter).2 stmt hstmt)
      setter := fun setter hsetter stmt hstmt =>
        hasPlace_of_wellNamed (((hnamed.properties p hp).setter setter hsetter).2 stmt hstmt) }
  initializers := hfree
  constructors := hc.constructors
  methods := by simp [hc.methods]

/-- What takes the place of one class: the class itself, which is not framed, or its host and its
record type. -/
inductive RenderablePiece : List ClassDecl → Prop where
  | kept {c : ClassDecl} : Renderable c → c.origin = .declared → c.isFramed = false →
      c.initializers = [] → RenderablePiece [c]
  | framed {host : ClassDecl} {d : Framing.Draft} {ps : List Property} :
      RenderableHost host d.recordType → host.origin = .declared →
      RenderablePiece [host, recordOf d ps]

/-- A host finds its record type in the module, or another class of its name. -/
theorem RenderablePiece.succeeds_classItems {piece : List ClassDecl} (h : RenderablePiece piece)
    {config : EmitConfig} {m : Module} (hpiece : piece ⊆ m.classes) :
    ∀ c ∈ piece, Succeeds (classItems config m c) := by
  cases h with
  | kept hc horigin hplain hinitializers =>
    rw [List.forall_mem_singleton, classItems, horigin]
    dsimp only
    rw [hplain]
    exact succeeds_plainItems hc hinitializers
  | @framed host d ps hhost horigin =>
    have hrecord : (m.class? d.recordType.name).isSome = true :=
      List.find?_isSome.mpr ⟨recordOf d ps, hpiece (by simp), by simp [recordOf]⟩
    have hframed : host.isFramed = true := by
      obtain ⟨field, hfield, -⟩ := hhost.field
      rw [ClassDecl.isFramed, hfield, Option.isSome_some, Bool.or_true]
    rw [List.forall_mem_cons, List.forall_mem_singleton, classItems, horigin]
    dsimp only
    rw [hframed]
    exact ⟨succeeds_framedItems hhost hrecord, succeeds_recordItems config d ps⟩

/-- **Emission after framing.** A source is parsed; none of its classes is marked as framed by a
supertype, and no initializer uses `field`. If all rules frame it without an error, whatever the
environment, the base and the suffix of record types, then code is emitted for what comes out,
whatever the choices for code: a host names its record type itself, so no suffix is guessed. -/
theorem emission_succeeds {source : String} {m : Module}
    (hparse : Grammar.parseModule source = .ok m)
    (hunmarked : ∀ c ∈ m.classes, c.hasSupertype framedMarker = false)
    (hfree : ∀ c ∈ m.classes, ∀ q ∈ c.properties, ∀ e ∈ q.initializer, e.usesBacking = false)
    {p : Framing.Pipeline} (hp : p.rules = Framing.Rule.all)
    (hok : (p.transform m).1.summary.errors = []) (config : EmitConfig) (origin : String) :
    ∃ text, emit config (p.transform m).1.module origin = .ok text := by
  have hsourced := Grammar.sourced_of_parseModule hparse
  have hrenderable : ∀ c ∈ m.classes, Renderable c := fun c hc =>
    renderable_of_sourced (hsourced c hc) (Grammar.wellNamed_of_parseModule hparse c hc)
      (hfree c hc)
  have hkept : ∀ c ∈ m.classes, RenderablePiece [c] := by
    intro c hc
    have hplain : c.isFramed = false := by
      simp [ClassDecl.isFramed, hunmarked c hc, ClassDecl.field?, (hsourced c hc).fields]
    exact .kept (hrenderable c hc) (hsourced c hc).origin hplain (hsourced c hc).initializers
  have hframed : ∀ c ∈ m.classes, ∀ stats i t,
      (Framing.Pipeline.transformClass { p with stats } m
        (((Framing.Facts.analyze m).get? c.name).getD {}) i c).1 = .ok (some t) →
          RenderablePiece [t.host, t.record] := by
    intro c hc stats i t ht
    obtain ⟨ps, base, hframes⟩ :=
      Framing.Pipeline.framesAs_of_transformClass (p := { p with stats }) hp ht
    rw [hframes.eq]
    exact .framed ((hrenderable c hc).renderableHost (hsourced c hc) hframes.selects.framable.mem)
      (hsourced c hc).origin
  obtain ⟨pieces, hpieces, hall⟩ :=
    Framing.Pipeline.exists_pieces_of_transform hkept hframed hok
  have hitems : Succeeds (moduleItems config (p.transform m).1.module) := by
    refine Succeeds.map (succeeds_mapM fun c hc => ?_) _
    obtain ⟨piece, hpiece, hc⟩ := List.mem_flatten.mp (hpieces ▸ hc)
    refine (hall piece hpiece).succeeds_classItems (fun c hc => ?_) c hc
    rw [hpieces]
    exact List.mem_flatten.mpr ⟨piece, hpiece, hc⟩
  exact hitems.map _

/-- A heater, whose target is set with a record of what it was, and the device that it extends. -/
def heaterText : String :=
  "class Device \x7b var label: String set(text) \x7b field = text \x7d \x7d\n" ++
  "@Framed class Heater : Device \x7b\n" ++
  "  var target: Double = 0.5 get() = field set(degrees) \x7b\n" ++
  "    this.last = [field]; field = degrees; return field\n" ++
  "  \x7d\n" ++
  "  var last: List<Double>\n" ++
  "\x7d"

/-- What the text declares. -/
def heaterModule : Module where
  classes := [
    { name := "Device"
      properties := [
        { name := "label", type := .named "String", mutable := true
          setter := some { param := some "text", body := [.assign .backing (.name "text")] } }] },
    { name := "Heater"
      annotations := ["Framed"]
      supertypes := [.named "Device"]
      properties := [
        { name := "target", type := .named "Double", mutable := true
          initializer := some (.literal (.float (.ofRatio false 1 2)))
          getter := some { body := [.return .backing] }
          setter := some
            { param := some "degrees"
              body := [.assign (.member .this "last") (.list [.backing]),
                .assign .backing (.name "degrees"), .return .backing] } },
        { name := "last", type := .mk "List" [.named "Double"] false, mutable := true }] }]

/-- A class that is kept and a framed one, both with accessors that assign, are emitted. -/
theorem emission_succeeds_heater :
    Grammar.parseModule heaterText = .ok heaterModule ∧
    (∀ c ∈ heaterModule.classes, c.hasSupertype framedMarker = false) ∧
    (∀ c ∈ heaterModule.classes, ∀ q ∈ c.properties, ∀ e ∈ q.initializer,
      e.usesBacking = false) ∧
    standard.rules = Framing.Rule.all ∧
    (standard.transform heaterModule).1.summary.errors = [] ∧
    ∃ text, emit {} (standard.transform heaterModule).1.module "heater.frames" = .ok text := by
  have hparse : Grammar.parseModule heaterText = .ok heaterModule := by decide +kernel
  have hunmarked : ∀ c ∈ heaterModule.classes, c.hasSupertype framedMarker = false := by
    decide +kernel
  have hfree : ∀ c ∈ heaterModule.classes, ∀ q ∈ c.properties, ∀ e ∈ q.initializer,
      e.usesBacking = false := by decide +kernel
  have hrules : standard.rules = Framing.Rule.all := usual_standard.rules
  have hok : (standard.transform heaterModule).1.summary.errors = [] := by
    rw [Framing.Pipeline.standard_eq]
    decide +kernel
  exact ⟨hparse, hunmarked, hfree, hrules, hok,
    emission_succeeds hparse hunmarked hfree hrules hok {} "heater.frames"⟩

end VersionedObjects.Emission
