import VersionedObjects.Emission.Body
import VersionedObjects.Emission.Item

/-!
# Classes as generated Rust

A record type becomes a structure that can be created and assigned. A framed class becomes a
structure around its record chain with accessors that go through frames; any other class becomes a
plain structure. A superclass of the same module is a field, to which the class dereferences.
-/

namespace VersionedObjects.Emission

open Declaration

/-- The choices for generated code. -/
structure EmitConfig where
  /-- The module that generated code imports the store from. -/
  runtimePath : String := "frames_core::runtime"
  recordSuffix : String := "Record"
  /-- Generated types can be printed for debugging. -/
  deriveDebug : Bool := true
  deriving DecidableEq, Inhabited, Repr

/-- The derived traits of a structure, `Debug` first if it is wanted. -/
def derives (config : EmitConfig) (others : List String) : List String :=
  let names := (if config.deriveDebug then ["Debug"] else []) ++ others
  if names.isEmpty then [] else ["#[derive(" ++ commaSeparated names ++ ")]"]

/-- A parameter as code. -/
def parameterText (p : Parameter) : String :=
  identifier p.name ++ ": " ++ typeText p.type

/-- The types of the members of a class; fields count before properties, and those of the record
before all. -/
def memberTypes (c : ClassDecl) (record : Option ClassDecl) : Association TypeExpr :=
  .ofPairs (c.properties.map (fun p => (p.name, p.type)) ++
    (c.fields ++ record.elim [] (·.fields)).map fun f => (f.name, f.type))

/-- The members that the structure of a class stores: plain fields, and properties that store a
value outside a record. -/
def storedMembers (c : ClassDecl) (record : Option ClassDecl) : List Parameter :=
  (c.fields.filter (!·.isHidden)).map (fun f => { name := f.name, type := f.type }) ++
    (c.properties.filter fun p =>
        (record.bind (·.field? p.name)).isNone && p.hasBackingField).map
      fun p => { name := p.name, type := p.type }

/-- The superclass, if the module declares it. -/
def superclassIn? (m : Module) (c : ClassDecl) : Option ClassDecl := do
  let superclass ← c.superclass?
  (m.class? superclass.name).filter (·.origin == .declared)

/-- A remark on a superclass that the module does not know. -/
def externalRemark (m : Module) (c : ClassDecl) : List String :=
  match c.superclass? with
  | some superclass =>
    if (m.class? superclass.name).isNone then
      ["// extends " ++ superclass.text ++ ", which is not declared in this module"]
    else []
  | none => []

/-- The block by which a class dereferences to its superclass. -/
def derefBlock (className base : String) : Item :=
  .block ("std::ops::Deref for " ++ className) (some ("Target", base))
    [{ isPublic := false, name := "deref", params := ["&self"], result := some ("&" ++ base)
       body := [indentation ++ "&self.base"] }]

/-! ## Record types -/

/-- The function of a record type for one of its methods. -/
def recordFunction (s : Scope) (m : Method) : EmitM Function :=
  match m.name with
  | "create" => do
    return { isPublic := false, name := "create", params := [], result := some "Self"
             body := ← bodyLines s m.body }
  | "assign" => do
    let other := (m.params.head?.map (identifier ·.name)).getD "other"
    return { isPublic := false, name := "assign", params := ["&mut self", other ++ ": &Self"]
             body := ← bodyLines s m.body }
  | other => s.unsupported ("Record method " ++ other)

/-- The items of a record type. -/
def recordItems (config : EmitConfig) (record : ClassDecl) : EmitM (List Item) := do
  let types := Association.ofPairs (record.fields.map fun f => (f.name, f.type))
  let s : Scope := { className := record.name, types }
  let fields := record.fields.map fun f =>
    { isPublic := true, name := identifier f.name, type := typeText f.type : StructField }
  let methods := record.methods.filter (·.implements == some recordInterface)
  let functions ← methods.mapM (recordFunction s)
  return [.structure (derives config ["Clone", "Default"]) record.name fields,
    .block ("Record for " ++ record.name) none functions]

/-! ## Members of classes -/

/-- The accessors of a property; a property that computes its value and has no setter cannot be
set. -/
def accessors (s : Scope) (setterReceiver : String) (p : Property) : EmitM (List Function) := do
  let s := { s with property := some p.name }
  let getter := p.getter.getD { body := [.return .backing] }
  let get : Function :=
    { name := identifier p.name, params := ["&self"], result := some (typeText p.type)
      body := ← bodyLines s getter.body }
  if !p.mutable || (p.setter.isNone && !p.hasBackingField) then return [get]
  let setter := p.setter.getD { param := some "value", body := [.assign .backing (.name "value")] }
  let param := (setter.param.map identifier).getD "value"
  let set : Function :=
    { name := "set_" ++ snakeCase p.name
      params := [setterReceiver, param ++ ": " ++ typeText p.type]
      body := ← bodyLines s setter.body }
  return [get, set]

/-- How a method takes its object. -/
def receiverParams : Receiver → List String
  | .shared => ["&self"]
  | .mutable => ["&mut self"]
  | .absent => []

/-- The function of a method. -/
def methodFunction (s : Scope) (m : Method) : EmitM Function := do
  return { name := identifier m.name
           params := receiverParams m.receiver ++ m.params.map parameterText
           result := m.returns.map typeText
           body := ← bodyLines s m.body }

/-- The accessors and methods of a class, methods of interfaces apart. -/
def members (c : ClassDecl) (s : Scope) (setterReceiver : String) : EmitM (List Function) := do
  let accessors ← c.properties.mapM (accessors s setterReceiver)
  let methods ← (c.methods.filter (·.implements.isNone)).mapM (methodFunction s)
  return accessors.flatten ++ methods

/-- The arguments for the superclass, each after a comma. -/
def superArgs (s : Scope) (constructor : Constructor) : EmitM String := do
  let args ← (constructor.superCall.getD []).mapM fun arg => value s arg none
  return String.join (args.map (", " ++ ·))

/-- The text without the commas at its start. -/
def dropCommas : List Char → List Char
  | ',' :: ' ' :: rest => dropCommas rest
  | cs => cs

/-- The arguments without a comma before the first. -/
def firstArgs (args : String) : String :=
  String.ofList (dropCommas args.toList)

/-- The lines that give stored members their first values. -/
def storedLines (s : Scope) (c : ClassDecl) (stored : List Parameter) : EmitM (List String) :=
  stored.mapM fun member => do
    let code ←
      match (c.property? member.name).bind (·.initializer) with
      | some initializer => value s initializer (some member.type)
      | none => pure "Default::default()"
    return indentation ++ "    " ++ identifier member.name ++ ": " ++ code ++ ","

/-- The lines that make the structure, run statements and give the result. -/
def constructionLines (mutated : Bool) (fields body : List String) : List String :=
  [indentation ++ (if mutated then "let mut this" else "let this") ++ " = Self \x7b"] ++ fields ++
    [indentation ++ "\x7d;"] ++ body ++ [indentation ++ "this"]

/-- The field that holds the superclass part, set by its constructor. -/
def baseLine (call : String) : String :=
  indentation ++ "    base: " ++ call ++ ","

/-- The fields of the structure of a class. -/
def structFields (base : Option ClassDecl) (stored : List Parameter) : List StructField :=
  base.toList.map (fun base => { name := "base", type := base.name }) ++
    stored.map fun member => { name := identifier member.name, type := typeText member.type }

/-! ## Framed classes -/

/-- The target is the record chain of the object. -/
def isRecordField : Expr → Bool
  | .member target name => target.isThis && name == recordField
  | _ => false

/-- The first record of a framed class, and the statements after the chain is made. -/
def chainStart (s : Scope) (c : ClassDecl) : EmitM (String × List Stmt) :=
  match c.initializers with
  | (.assign target (.newChain initial) :: rest) :: blocks =>
    if isRecordField target then do return (← exprText s initial, rest ++ blocks.flatten)
    else s.unsupported "initializer without a record chain"
  | _ => s.unsupported "initializer without a record chain"

/-- The constructors of a framed class. -/
def framedConstructors (c : ClassDecl) (stored : List Parameter) (base : Option ClassDecl)
    (s : Scope) : EmitM (List Function) := do
  let constructor := c.constructors.head?.getD {}
  let this := { s with receiver := "this" }
  let ambient : Function :=
    { doc := some "Construct in the ambient frame manager"
      name := "new", params := [], result := some "Self"
      body := [indentation ++ "Self::new_in(&FrameManager::ambient())"] }
  let (initial, rest) ← chainStart this c
  let chainLine := indentation ++ "    frame_record: RecordChain::new_in(manager, \"" ++ c.name ++
    "\", " ++ initial ++ "),"
  let baseLines ← base.toList.mapM fun base => do
    let args ← superArgs this constructor
    return baseLine <|
      if base.isFramed then base.name ++ "::new_in(manager" ++ args ++ ")"
      else base.name ++ "::new(" ++ firstArgs args ++ ")"
  let stored ← storedLines this c stored
  let body ← stmtLines this (rest ++ constructor.body)
  let mutated := !constructor.body.isEmpty || 1 < c.initializers.length
  let make : Function :=
    { name := "new_in"
      params := "manager: &Arc<FrameManager>" :: constructor.params.map parameterText
      result := some "Self"
      body := constructionLines mutated (chainLine :: baseLines ++ stored) body }
  return if constructor.isZeroArg then [ambient, make] else [make]

/-- The block that prints a framed class for debugging. -/
def debugBlock (className : String) : Item :=
  .block ("std::fmt::Debug for " ++ className) none
    [{ isPublic := false, name := "fmt"
       params := ["&self", "f: &mut std::fmt::Formatter<'_>"], result := some "std::fmt::Result"
       body :=
        [indentation ++ "f.debug_struct(\"" ++ className ++ "\")",
          indentation ++ "    .field(\"id\", &self.frame_record.id())",
          indentation ++ "    .field(\"generations\", &self.frame_record.generations())",
          indentation ++ "    .finish()"] }]

/-- The function of a framed class for a method of the frame interface. -/
def framedFunction (s : Scope) (recordType : String) (m : Method) : EmitM Function :=
  if m.name = firstFrameRecord then
    match m.body with
    | [.return chain] => do
      return { isPublic := false, name := "first_frame_record", params := ["&self"]
               result := some ("&RecordChain<" ++ recordType ++ ">")
               body := [indentation ++ "&" ++ (← exprText s chain)] }
    | _ => s.unsupported "firstFrameRecord body"
  else if m.name = prependFrameRecord then do
    let param := (m.params.head?.map (identifier ·.name)).getD "record"
    match m.body with
    | [.expr expr] | [.return expr] =>
      return { isPublic := false, name := "prepend_frame_record"
               params := ["&self", param ++ ": StateRecord<" ++ recordType ++ ">"]
               result := some ("Arc<StateRecord<" ++ recordType ++ ">>")
               body := [indentation ++ (← exprText s expr)] }
    | _ => s.unsupported "prependFrameRecord body"
  else s.unsupported ("Framed method " ++ m.name)

/-- The block by which a class can be made without arguments. -/
def defaultBlock (className : String) : Item :=
  .block ("Default for " ++ className) none
    [{ isPublic := false, name := "default", params := [], result := some "Self"
       body := [indentation ++ "Self::new()"] }]

/-- The items of a framed class. -/
def framedItems (config : EmitConfig) (m : Module) (c : ClassDecl) : EmitM (List Item) := do
  let recordType :=
    ((c.field? recordField).map (·.type.name)).getD (c.name ++ config.recordSuffix)
  match m.class? recordType with
  | none => .error (.missingRecordType c.name recordType)
  | some record =>
    let s : Scope :=
      { className := c.name, types := memberTypes c (some record)
        framed := record.fields.map (·.name) }
    let stored := storedMembers c (some record)
    let base := superclassIn? m c
    let chainField : StructField :=
      { name := "frame_record", type := "RecordChain<" ++ recordType ++ ">" }
    let constructors ← framedConstructors c stored base s
    let members ← members c s "&self"
    let framed ← (c.methods.filter (·.implements == some framedMarker)).mapM
      (framedFunction s recordType)
    return [.structure (externalRemark m c) c.name (chainField :: structFields base stored),
        .block c.name none (constructors ++ members)] ++
      base.toList.map (fun base => derefBlock c.name base.name) ++
      (if config.deriveDebug then [debugBlock c.name] else []) ++
      [.block ("Framed for " ++ c.name) (some ("Record", recordType)) framed] ++
      (if c.constructors.all (·.isZeroArg) then [defaultBlock c.name] else [])

/-! ## Plain classes -/

/-- The constructor of a plain class. -/
def plainConstructor (c : ClassDecl) (stored : List Parameter) (base : Option ClassDecl)
    (s : Scope) : EmitM Function := do
  let constructor := c.constructors.head?.getD {}
  let this := { s with receiver := "this" }
  let stmts := c.initializers.flatten ++ constructor.body
  let baseLines ← base.toList.mapM fun base => do
    return baseLine (base.name ++ "::new(" ++ firstArgs (← superArgs this constructor) ++ ")")
  let stored ← storedLines this c stored
  let body ← stmtLines this stmts
  return { name := "new", params := constructor.params.map parameterText, result := some "Self"
           body := constructionLines (!stmts.isEmpty) (baseLines ++ stored) body }

/-- The items of a plain class. -/
def plainItems (config : EmitConfig) (m : Module) (c : ClassDecl) : EmitM (List Item) := do
  let s : Scope := { className := c.name, types := memberTypes c none }
  let stored := storedMembers c none
  let base := superclassIn? m c
  let constructor ← plainConstructor c stored base s
  let members ← members c s "&mut self"
  return [.structure (externalRemark m c ++ derives config []) c.name (structFields base stored),
      .block c.name none (constructor :: members)] ++
    base.toList.map fun base => derefBlock c.name base.name

/-! ## Modules -/

/-- The items of a class. -/
def classItems (config : EmitConfig) (m : Module) (c : ClassDecl) : EmitM (List Item) :=
  match c.origin with
  | .recordOf _ => recordItems config c
  | .declared => if c.isFramed then framedItems config m c else plainItems config m c

/-- The items of all classes in order. -/
def moduleItems (config : EmitConfig) (m : Module) : EmitM (List Item) := do
  return (← m.classes.mapM (classItems config m)).flatten

/-- What generated code imports for framed classes. -/
def imports (config : EmitConfig) (m : Module) : String :=
  if m.classes.any (·.isFramed) then
    "\nuse std::sync::Arc;\n\nuse " ++ config.runtimePath ++
      "::\x7bnotify_created, readable, writable, FrameManager, Framed, Record, RecordChain, " ++
      "StateRecord\x7d;\n"
  else ""

/-- The code for a module; its first line names where the module comes from. -/
def emit (config : EmitConfig) (m : Module) (source : String) : EmitM String := do
  let items ← moduleItems config m
  return "// Generated by framec from " ++ source ++ ". Do not edit.\n" ++ imports config m ++
    String.join (items.map ("\n" ++ ·.text))

end VersionedObjects.Emission
