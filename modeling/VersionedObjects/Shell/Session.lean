import VersionedObjects.Dynamic.Loading
import VersionedObjects.Dynamic.Operations
import VersionedObjects.Inspection.Dynamic
import VersionedObjects.Shell.Command

/-!
# Sessions of the shell

A session has one manager with its loaded classes, the frames that were opened by hand and are not
closed yet, and the instances that are bound to names. At most one of the frames is active: what is
made, read and written happens in it.
-/

namespace VersionedObjects.Shell

open Declaration (Module)
open VersionedObjects.Dynamic (EvalError EvalM Failure InstanceId ProgramError Runtime Slots Value)
open Framing (Summary)
open Grammar (LoadError)
open Store (FrameId Generation ManagerId ObjectId Refusal World)

/-- The state of a session. -/
structure Session where
  runtime : Runtime
  /-- The open frames, ascending by generation. -/
  frames : List (Generation × FrameId) := []
  active : Option Generation := none
  /-- The bound instances, in the order of their names. -/
  instances : List (String × InstanceId) := []
  running : Bool := true
  /-- No times are shown. -/
  quiet : Bool := false
  deriving Inhabited

/-- The only manager of a session. -/
def manager : ManagerId := 0

/-- A session at its start. -/
def Session.start (config : Store.Config) : Session :=
  { runtime := ({} : Runtime).addManager config }

/-- Why a line had no result. -/
inductive Problem where
  | command (error : CommandError)
  | load (error : LoadError)
  | program (error : ProgramError)
  | eval (error : EvalError)
  | refusal (error : Refusal)
  | noOpenFrame (generation : Generation)
  | noActiveFrame
  | noInstance (var : String)
  | plainInstance (var className : String)
  /-- The store was misused, or calls did not end. -/
  | broken (failure : Failure)
  deriving DecidableEq, Inhabited

/-- The text by which the shell names an object: a number of eight hexadecimal digits, spread so
that objects made one after the other look different. -/
def objectText (o : ObjectId) : String :=
  let digits := Text.hexDigits (0x9e3779b1 * (o + 1) % Nat.pow 2 32)
  "#" ++ String.ofList (List.replicate (8 - digits.length) '0' ++ digits)

/-- An error of the program and its causes, outermost first. -/
def programMessages (e : ProgramError) : List String :=
  e.text objectText ::
    match e with
    | .parse error => error.messages
    | .framing error => [error.text]
    | .eval error => [error.text objectText]
    | .frame error => [error.text objectText]

/-- The problem and its causes, outermost first. -/
def Problem.messages : Problem → List String
  | command e => [e.text]
  | load e => e.messages
  | program e => programMessages e
  | eval e => [e.text objectText]
  | refusal e => [e.text objectText]
  | noOpenFrame g => ["No open frame " ++ Store.generationText g]
  | noActiveFrame => ["No active frame; open one with .open"]
  | noInstance var => ["No instance named '" ++ var ++ "'; bind one with .new"]
  | plainInstance var className =>
    [var ++ " is a plain " ++ className ++ " without a record chain"]
  | broken (.violation v) => [v.text objectText]
  | broken (.eval e) => [e.text objectText]
  | broken .exhausted => ["calls nest too deeply"]

/-- The problem and its causes on one line. -/
def Problem.text (p : Problem) : String :=
  String.intercalate ": " p.messages

/-- An operation on a session; what it did before it fails is kept. -/
abbrev SessionM := EStateM Problem Session

/-- Runs an operation on the runtime. -/
def evaluate {β : Type} (action : EvalM β) : SessionM β := fun s =>
  match action s.runtime with
  | .ok b runtime => .ok b { s with runtime }
  | .error (.eval e) runtime => .error (.eval e) { s with runtime }
  | .error failure runtime => .error (.broken failure) { s with runtime }

/-- Changes the runtime. -/
def changeRuntime {β : Type} (f : Runtime → β × Runtime) : SessionM β :=
  evaluate (modifyGetThe Runtime f)

/-- Changes the store. -/
def changeWorld {β : Type} (f : World Slots → β × World Slots) : SessionM β :=
  evaluate (modifyGetThe (World Slots) f)

/-- What the program may have failed to do. -/
def orProblem {ε β : Type} (problem : ε → Problem) : Except ε β → SessionM β
  | .ok b => return b
  | .error e => throw (problem e)

/-- Runs something inside the active frame, if there is one. -/
def inActiveFrame {β : Type} (action : EvalM β) : SessionM β := do
  let s ← get
  match s.active.bind fun g => s.frames.lookup g with
  | some f => evaluate (Store.enter Slots f action)
  | none => evaluate action

/-- The instance of a name. -/
def instanceOf (var : String) : SessionM InstanceId := do
  match (← get).instances.lookup var with
  | some i => return i
  | none => throw (.noInstance var)

/-! ## Frames -/

/-- Opens a frame and makes it active. -/
def openFrame : SessionM String := do
  let f ← orProblem .refusal (← changeWorld (·.openFrame manager {}))
  let frame := (← get).runtime.world.frame f
  let g := frame.generation
  modify fun s => { s with frames := s.frames ++ [(g, f)], active := some g }
  let hidden := frame.view.invalid.map Store.generationText
  return "Opened frame " ++ Store.generationText g ++
    if hidden.isEmpty then "" else " (not seeing " ++ String.intercalate ", " hidden ++ ")"

/-- Makes an open frame active. -/
def activate (g : Generation) : SessionM String := do
  if ((← get).frames.lookup g).isNone then throw (.noOpenFrame g)
  modify fun s => { s with active := some g }
  return "Frame " ++ Store.generationText g ++ " is active"

/-- Takes a frame, by default the active one, out of the table. -/
def takeFrame (target : Option Generation) : SessionM (Generation × FrameId) := do
  let s ← get
  match target <|> s.active with
  | none => throw .noActiveFrame
  | some g =>
    match s.frames.lookup g with
    | none => throw (.noOpenFrame g)
    | some f =>
      set { s with frames := s.frames.filter (·.1 ≠ g)
                   active := s.active.filter (· ≠ g) }
      return (g, f)

/-- Commits a frame. -/
def commitFrame (target : Option Generation) : SessionM String := do
  let (g, f) ← takeFrame target
  let result ← evaluate (Store.commit Slots f)
  changeWorld fun w => ((), w.release f)
  let event ← orProblem .refusal result
  return "Committed frame " ++ Store.generationText g ++ s!": {event.changed.length} changed" ++
    if event.merged.isEmpty then "" else s!", {event.merged.length} merged"

/-- Discards a frame. -/
def discardFrame (target : Option Generation) : SessionM String := do
  let (g, f) ← takeFrame target
  changeWorld fun w => ((), (w.discard f).release f)
  return "Discarded frame " ++ Store.generationText g

/-- The open frames and what the manager has done. -/
def describeFrames (s : Session) : String :=
  let w := s.runtime.world
  let lines := s.frames.map fun (g, f) =>
    let frame := w.frame f
    (if s.active = some g then "*" else " ") ++ " " ++ Store.generationText g ++ "  " ++
      frame.state.text ++ s!"  wrote {frame.touched.length}"
  let c := (w.manager manager).counters
  let counters :=
    s!"opened {c.opened}, committed {c.committed}, discarded {c.discarded}, " ++
      s!"conflicts {c.conflicts}, merged {c.merged}, trimmed {c.recordsTrimmed}"
  String.intercalate "\n" ((if lines.isEmpty then ["No open frames"] else lines) ++ [counters])

/-! ## Classes and instances -/

/-- What became of loaded classes. -/
def describeSummary (s : Summary) : String :=
  s!"{s.seen} classes, {s.transformed} framed, {s.properties} properties framed"

/-- Loads the module of a file. -/
def loadFile (path : String) (loaded : Except LoadError Module) : SessionM String := do
  let module ← orProblem .load loaded
  let summary ← orProblem .program (← changeRuntime (·.loadModule manager module))
  return "Loaded " ++ path ++ ": " ++ describeSummary summary

/-- Loads declarations. -/
def declare (source : String) : SessionM String := do
  let summary ← orProblem .program (← changeRuntime (·.loadSource manager source))
  return describeSummary summary

/-- Binds a name in a table in order, in place of what it was bound to. -/
def bindName {β : Type} (name : String) (value : β) : List (String × β) → List (String × β)
  | [] => [(name, value)]
  | entry :: rest =>
    if name = entry.1 then (name, value) :: rest
    else if name < entry.1 then (name, value) :: entry :: rest
    else entry :: bindName name value rest

/-- Makes an instance and binds it to a name. -/
def newInstance (var className : String) (args : List String) : SessionM String := do
  let values ← orProblem .program (args.mapM Value.parse)
  let i ← inActiveFrame (Dynamic.makeInstance manager className values)
  modify fun s => { s with instances := bindName var i s.instances }
  let object := ((← get).runtime.inst i).object
  return var ++ " = " ++ className ++ object.elim "" fun o => " " ++ objectText o

/-- Reads one property or all of them. -/
def getProperties (var : String) (property : Option String) : SessionM String := do
  let i ← instanceOf var
  match property with
  | some property => return (← inActiveFrame (Dynamic.readProperty i property)).text
  | none =>
    let values ← inActiveFrame (Dynamic.readProperties i)
    return String.intercalate "\n" (values.map fun (name, value) => name ++ " = " ++ value.text)

/-- Writes a property. -/
def setProperty (var property text : String) : SessionM String := do
  let i ← instanceOf var
  let value ← orProblem .program (Value.parse text)
  inActiveFrame (Dynamic.writeProperty i property value)
  return var ++ "." ++ property ++ " = " ++ value.text

/-- The record chain of an instance, newest record first. -/
def describeChain (var : String) : SessionM String := do
  let i ← instanceOf var
  let r := (← get).runtime
  let inst := r.inst i
  match inst.object with
  | none => throw (.plainInstance var inst.cls.name)
  | some o =>
    let object := r.world.object o
    let slots := inst.cls.layout.keys.zipIdx
    let line (record : Store.Record Slots) : String :=
      let fields := slots.map fun (name, slot) => name ++ " = " ++ (record.value.slot slot).text
      "  " ++ Store.generationText record.generation ++
        record.base.elim "" (fun base => " <- " ++ Store.generationText base) ++ ": " ++
        String.intercalate ", " fields
    let head := object.typeName ++ " " ++ objectText o ++ s!" ({object.chain.size} records)"
    return String.intercalate "\n" (head :: object.chain.records.reverse.map line)

/-- Trims the chains of every part of every bound instance. -/
def collectAll : SessionM String := do
  let s ← get
  let parts := s.instances.flatMap fun (_, i) => Dynamic.parts s.runtime i
  let objects := parts.filterMap fun i => (s.runtime.inst i).object
  let trimmed ← changeWorld fun w => objects.foldl (fun (trimmed, w) o =>
    let (n, w) := w.collect manager o
    (trimmed + n, w)) (0, w)
  return s!"Trimmed {trimmed} records"

/-- The loaded classes and the bound instances. -/
def describeClasses (s : Session) : String :=
  let table := s.runtime.table manager
  let classes := table.names.map fun name =>
    let framed := (table.get? name).any (·.isFramed)
    "class " ++ name ++ (if framed then " (framed)" else " (plain)")
  let instances := s.instances.map fun (var, i) => var ++ ": " ++ (s.runtime.inst i).cls.name
  let lines := classes ++ instances
  if lines.isEmpty then "Nothing loaded" else String.intercalate "\n" lines

/-! ## Lines -/

/-- The help of the shell. -/
def helpText : String := "framec REPL Commands:
  .help                     - Show this help message
  .quit                     - Exit the REPL
  .quiet                    - Toggle quiet mode (hide timing info)
  .load <file>              - Load a .frames or .json declaration file
  .classes                  - List loaded classes and bound instances

Instances:
  .new <var> <Class> [args] - Construct an instance (in the active frame, if any)
  .get <var> [property]     - Read one or every property
  .set <var> <prop> <value> - Write a property in the active frame
  .chain <var>              - Show the instance's record chain

Frames:
  .open [generation]        - Open a new frame, or reactivate an open one
  .commit [generation]      - Commit the active (or given) frame
  .discard [generation]     - Discard the active (or given) frame
  .frames                   - List open frames and runtime counters
  .gc                       - Trim stale records from every instance

Any other line is declaration source, e.g.
  @Framed class Counter \x7b var count: Int = 0 \x7d"

/-- Performs a command, given what loading a file gives. -/
def perform (load : String → Except LoadError Module) : Command → SessionM String
  | .help => return helpText
  | .quit => do
    modify fun s => { s with running := false }
    return "Goodbye!"
  | .quiet => do
    modify fun s => { s with quiet := !s.quiet }
    return "Quiet mode: " ++ if (← get).quiet then "on" else "off"
  | .load path => loadFile path (load path)
  | .declare source => declare source
  | .new var className args => newInstance var className args
  | .open none => openFrame
  | .open (some g) => activate g
  | .commit target => commitFrame target
  | .discard target => discardFrame target
  | .get var property => getProperties var property
  | .set var property value => setProperty var property value
  | .frames => return describeFrames (← get)
  | .chain var => describeChain var
  | .gc => collectAll
  | .classes => return describeClasses (← get)

/-- The line has something to do: it is neither blank nor a comment. -/
def isEffective (line : String) : Bool :=
  match Text.trim line.toList with
  | [] | '/' :: '/' :: _ => false
  | _ => true

/-- Runs a line. -/
def Session.run (s : Session) (load : String → Except LoadError Module) (line : String) :
    Except Problem String × Session :=
  match parseCommand line with
  | .error e => (.error (.command e), s)
  | .ok command =>
    match perform load command s with
    | .ok text s => (.ok text, s)
    | .error problem s => (.error problem, s)

/-- What is said at the end of a session. -/
def Session.farewell (s : Session) : List String :=
  let c := (s.runtime.world.manager manager).counters
  (if s.frames.isEmpty then [] else [s!"Discarding {s.frames.length} open frames"]) ++
    if s.quiet then []
    else [s!"\nSession complete: {c.committed} frames committed, {c.discarded} discarded."]

end VersionedObjects.Shell
