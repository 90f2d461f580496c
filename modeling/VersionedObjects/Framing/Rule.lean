import VersionedObjects.Framing.FramingError
import VersionedObjects.Framing.Redirection

/-!
# Framing rules

The steps that move the stored properties of a class into a record type: the record type itself,
the record chain, the operations on it, the initializers, the accessors and the marker. A rule
that fails leaves what it had done so far.
-/

namespace VersionedObjects.Framing

open Declaration

/-- A class on its way through framing. -/
structure Draft where
  /-- The class that is framed. -/
  host : ClassDecl
  /-- The position that the host will have in its module. -/
  hostIndex : Nat := 0
  /-- The record type, once there is one. -/
  record : Option ClassDecl := none
  /-- The framed properties in order of declaration. -/
  framed : List String
  recordType : TypeExpr
  /-- The class that the record type extends. -/
  baseRecord : ClassDecl
  deriving Inhabited, Repr

/-- A class can be constructed without arguments: it has such a constructor, or none at all. -/
def hasZeroArgConstructor (c : ClassDecl) : Bool :=
  c.constructors.isEmpty || c.constructors.any (·.isZeroArg)

/-- A rule of framing. -/
inductive Rule where
  | synthesizeRecordType
  | installRecordField
  | installChainOperations
  | moveInitializers
  | redirectAccessors
  | addFramedMarker
  deriving DecidableEq, Inhabited, Repr

namespace Rule

/-- The rules, highest priority first. -/
def all : List Rule :=
  [synthesizeRecordType, installRecordField, installChainOperations, moveInitializers,
    redirectAccessors, addFramedMarker]

/-- The name of a rule. -/
def name : Rule → String
  | synthesizeRecordType => "SynthesizeRecordType"
  | installRecordField => "InstallRecordField"
  | installChainOperations => "InstallChainOperations"
  | moveInitializers => "RewriteInitializers"
  | redirectAccessors => "RewriteAccessors"
  | addFramedMarker => "AddFramedMarker"

/-- The rule of a name. -/
def ofName? (name : String) : Option Rule :=
  all.find? (·.name == name)

/-- What a rule does, in a sentence. -/
def description : Rule → String
  | synthesizeRecordType =>
    "Generate <Name>Record with one field per framed property, create() and assign()"
  | installRecordField => "Add the hidden $record field holding the instance's record chain"
  | installChainOperations =>
    "Generate firstFrameRecord() and prependFrameRecord(record) for the frame runtime"
  | moveInitializers =>
    "Build the first record in an initializer block, store initializers into it and announce " ++
      "the instance"
  | redirectAccessors => "Replace backing-field reads with readable() and writes with writable()"
  | addFramedMarker =>
    "Add Framed to the supertypes so the runtime can dispatch on framed instances"

/-- Rules of higher priority run first. -/
def priority : Rule → Nat
  | synthesizeRecordType => 600
  | installRecordField => 500
  | installChainOperations => 400
  | moveInitializers => 300
  | redirectAccessors => 200
  | addFramedMarker => 100

/-- The rule applies to the draft. -/
def applies (d : Draft) : Rule → Bool
  | synthesizeRecordType => d.record.isNone
  | installRecordField => (d.host.field? recordField).isNone
  | installChainOperations | moveInitializers | redirectAccessors => true
  | addFramedMarker => !d.host.hasSupertype framedMarker

/-- The failure of a rule on a draft. -/
def failure (rule : Rule) (d : Draft) (message : String) : FramingError :=
  { className := d.host.name, cause := .rule rule.name message }

/-- The failure of a rule that misses a framed property. -/
def undeclared (rule : Rule) (d : Draft) (name : String) : FramingError :=
  rule.failure d ("framed property " ++ name ++ " is not declared")

/-- What a rule makes of a draft: whether it changed, or why the rule failed, and how far the
draft has come. -/
abbrev Result := Except FramingError Bool × Draft

/-! ## The record type -/

/-- The fields of the record type, one for each framed property. -/
def recordFields (d : Draft) : Except FramingError (List Field) :=
  d.framed.mapM fun name =>
    match d.host.property? name with
    | some p => .ok { name, type := p.type }
    | none => .error (synthesizeRecordType.undeclared d name)

/-- The method that makes a fresh record. -/
def createMethod (recordType : TypeExpr) : Method :=
  { name := "create"
    returns := some recordType
    body := [.return (.newRecord recordType)]
    implements := some recordInterface
    receiver := .absent }

/-- The method that copies every slot of another record. -/
def assignMethod (d : Draft) : Method :=
  { name := "assign"
    params := [{ name := "other", type := .named d.baseRecord.name }]
    body := d.framed.map fun name =>
      .assign (.member .this name) (.member (.cast (.name "other") d.recordType) name)
    implements := some recordInterface
    receiver := .mutable }

/-- Makes the record type. -/
def applySynthesizeRecordType (d : Draft) : Result :=
  if !hasZeroArgConstructor d.baseRecord then
    (.error { className := d.host.name, cause := .missingBaseConstructor d.baseRecord.name }, d)
  else
    match recordFields d with
    | .error e => (.error e, d)
    | .ok fields =>
      let record : ClassDecl :=
        { name := d.recordType.name
          supertypes := [.named d.baseRecord.name]
          fields
          constructors := [{ superCall := some [] }]
          methods := [createMethod d.recordType, assignMethod d]
          origin := .recordOf d.hostIndex }
      (.ok true, { d with record := some record })

/-! ## The record chain -/

/-- Adds the hidden field of the record chain. -/
def applyInstallRecordField (d : Draft) : Result :=
  let field : Field := { name := recordField, type := d.recordType, isHidden := true }
  (.ok true, { d with host := { d.host with fields := d.host.fields ++ [field] } })

/-- The method that gives the record chain. -/
def firstFrameRecordMethod (recordType : TypeExpr) : Method :=
  { name := firstFrameRecord
    returns := some recordType
    body := [.return chainExpr]
    implements := some framedMarker }

/-- The method that links a record into the chain. -/
def prependFrameRecordMethod (recordType : TypeExpr) : Method :=
  { name := prependFrameRecord
    params := [{ name := "record", type := recordType }]
    body := [.expr (.prependRecord chainExpr (.name "record"))]
    implements := some framedMarker }

/-- Adds the operations on the record chain that are not there yet. -/
def applyInstallChainOperations (d : Draft) : Result :=
  let missing := [firstFrameRecordMethod d.recordType, prependFrameRecordMethod d.recordType].filter
    fun m => (d.host.method? m.name).isNone
  (.ok !missing.isEmpty, { d with host := { d.host with methods := d.host.methods ++ missing } })

/-! ## Initializers and accessors -/

/-- Changes the first property of a name. -/
def modifyProperty (name : String) (f : Property → Property) : List Property → List Property
  | [] => []
  | p :: rest => if p.name == name then f p :: rest else p :: modifyProperty name f rest

/-- The draft with the first property of a name changed. -/
def Draft.modifyProperty (d : Draft) (name : String) (f : Property → Property) : Draft :=
  { d with host := { d.host with properties := Rule.modifyProperty name f d.host.properties } }

/-- Takes the initializers of framed properties in order and gives the assignments to the first
record that stand for them. -/
def takeInitializers (d : Draft) : List String → Except FramingError (List Stmt) × Draft
  | [] => (.ok [], d)
  | name :: rest =>
    match d.host.property? name with
    | none => (.error (moveInitializers.undeclared d name), d)
    | some p =>
      let d := Draft.modifyProperty d name fun p => { p with initializer := none }
      let (stmts, d) := takeInitializers d rest
      let stmt := p.initializer.map fun value => .assign (firstRecordField d.recordType name) value
      (stmts.map (stmt.toList ++ ·), d)

/-- Builds the first record in an initializer block of its own, ahead of the others. -/
def applyMoveInitializers (d : Draft) : Result :=
  let newChain : Stmt := .assign chainExpr (.newChain (.newRecord d.recordType))
  match takeInitializers d d.framed with
  | (.error e, d) => (.error e, d)
  | (.ok stmts, d) =>
    let block := newChain :: stmts ++ [.notifyCreated]
    (.ok true, { d with host := { d.host with initializers := block :: d.host.initializers } })

/-- The property with accessors that go through records. -/
def redirectProperty (recordType : TypeExpr) (p : Property) : Property :=
  let read := readableField recordType p.name
  let write := writableField recordType p.name
  let getter : Accessor :=
    match p.getter with
    | some getter => { body := getter.body.map (redirectStmt read write) }
    | none => { body := [.return read] }
  let setter : Accessor :=
    match p.setter with
    | some setter => { setter with body := setter.body.map (redirectStmt read write) }
    | none => { param := some "value", body := [.assign write (.name "value")] }
  { p with getter := some getter, setter := if p.mutable then some setter else p.setter }

/-- Redirects the accessors of framed properties in order. -/
def redirectEach (d : Draft) : List String → Except FramingError Unit × Draft
  | [] => (.ok (), d)
  | name :: rest =>
    if (d.host.property? name).isNone then (.error (redirectAccessors.undeclared d name), d)
    else redirectEach (Draft.modifyProperty d name (redirectProperty d.recordType)) rest

/-- Makes the accessors of framed properties go through records. -/
def applyRedirectAccessors (d : Draft) : Result :=
  match redirectEach d d.framed with
  | (.error e, d) => (.error e, d)
  | (.ok (), d) => (.ok !d.framed.isEmpty, d)

/-- Adds the marker of framed classes. -/
def applyAddFramedMarker (d : Draft) : Result :=
  let supertypes := d.host.supertypes ++ [.named framedMarker]
  (.ok true, { d with host := { d.host with supertypes } })

/-- Applies the rule. -/
def apply (d : Draft) : Rule → Result
  | synthesizeRecordType => applySynthesizeRecordType d
  | installRecordField => applyInstallRecordField d
  | installChainOperations => applyInstallChainOperations d
  | moveInitializers => applyMoveInitializers d
  | redirectAccessors => applyRedirectAccessors d
  | addFramedMarker => applyAddFramedMarker d

/-! ## Checks -/

/-- The property is one of the framed ones. -/
def Draft.isFramed (d : Draft) (p : Property) : Bool :=
  d.framed.contains p.name

/-- The property has no getter, or an accessor still uses the stored value. -/
def reachesBacking (p : Property) : Bool :=
  p.getter.isNone || p.getter.any (·.usesBacking) || p.setter.any (·.usesBacking)

/-- The last statement of the first initializer block announces the object. -/
def announces (c : ClassDecl) : Bool :=
  match c.initializers.head?.bind (·.getLast?) with
  | some .notifyCreated => true
  | _ => false

/-- Checks what the rule has left. -/
def validate (d : Draft) : Rule → Except FramingError Unit
  | synthesizeRecordType =>
    match d.record with
    | some record =>
      if record.fields.length = d.framed.length then .ok ()
      else .error (synthesizeRecordType.failure d "record fields do not match framed properties")
    | none => .error (synthesizeRecordType.failure d "no record type")
  | moveInitializers =>
    match d.host.properties.find? fun p => Draft.isFramed d p && p.initializer.isSome with
    | some p =>
      .error (moveInitializers.failure d (p.name ++ " still has an inline initializer"))
    | none =>
      if announces d.host then .ok ()
      else .error (moveInitializers.failure d "initializer does not announce the instance")
  | redirectAccessors =>
    match d.host.properties.find? fun p => Draft.isFramed d p && reachesBacking p with
    | some p =>
      .error (redirectAccessors.failure d (p.name ++ " still reaches its backing field directly"))
    | none => .ok ()
  | installRecordField | installChainOperations | addFramedMarker => .ok ()

end Rule

end VersionedObjects.Framing
