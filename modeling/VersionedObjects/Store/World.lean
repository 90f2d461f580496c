import VersionedObjects.Store.Retention

/-!
# Frame managers, frames and objects

The world holds every manager, frame and object ever made; each is known by its position. A
manager owns a clock and the table of its open frames. An object belongs to the manager it was
made in. At most one frame is current.
-/

namespace VersionedObjects.Store

/-- A manager by its position. -/
abbrev ManagerId := Nat

/-- A frame by its position. -/
abbrev FrameId := Nat

/-- An object by its position. -/
abbrev ObjectId := Nat

/-- When chains are trimmed. -/
inductive GcPolicy where
  /-- Every chain that a frame touched, as part of its commit. -/
  | onCommit
  /-- Only on request. -/
  | manual
  deriving DecidableEq, Inhabited, Repr

/-- The settings of a manager. -/
structure Config where
  gc : GcPolicy := .onCommit
  maxOpenFrames : Nat := 1024
  traceReads : Bool := false
  deriving DecidableEq, Inhabited, Repr

/-- What a manager has done so far. -/
structure Counters where
  opened : Nat := 0
  committed : Nat := 0
  discarded : Nat := 0
  conflicts : Nat := 0
  merged : Nat := 0
  created : Nat := 0
  recordsTrimmed : Nat := 0
  deriving DecidableEq, Inhabited, Repr

/-- The owner of a clock and of the frames on it. -/
structure Manager where
  config : Config := {}
  /-- The next generation of the clock. -/
  next : Generation := 1
  /-- The open generations, ascending, each with those that were open before it. -/
  openTable : List (Generation × List Generation) := []
  /-- The open generations for those who do not look at the table; published anew with every change
  of it. -/
  published : List Generation := []
  published_eq : published = openTable.map (·.1) := by rfl
  counters : Counters := {}
  deriving DecidableEq, Repr

instance : Inhabited Manager := ⟨{}⟩

namespace Manager

/-- The open generations, ascending. -/
def openGenerations (m : Manager) : List Generation :=
  m.openTable.map (·.1)

/-- The generation is open. -/
def isOpen (m : Manager) (g : Generation) : Bool :=
  m.openGenerations.contains g

/-- The lowest open generation, or the next one of the clock. -/
def watermark (m : Manager) : Generation :=
  m.openGenerations.head?.getD m.next

/-- The view of everything committed so far. -/
def now (m : Manager) : Visibility :=
  .snapshot m.next m.published

/-- The now view is that of a frame opened now. -/
theorem now_eq (m : Manager) : m.now = .snapshot m.next m.openGenerations := by
  rw [now, m.published_eq, openGenerations]

/-- The readers alive: every open frame and a reader of the present. -/
def gcView (m : Manager) : GcView where
  watermark := m.watermark
  readers :=
    m.openTable.map (fun (g, invalid) => .ofFrame g invalid) ++
      [.snapshot m.next m.openGenerations]
  opened := m.openGenerations

/-- The manager with another open table, which is published. -/
def publishOpen (m : Manager) (table : List (Generation × List Generation)) : Manager :=
  { m with openTable := table, published := table.map (·.1), published_eq := rfl }

/-- The manager after a generation was taken from the clock and opened. -/
def openNext (m : Manager) (invalid : List Generation) : Manager :=
  { m with next := m.next + 1 }.publishOpen (m.openTable ++ [(m.next, invalid)])

/-- The manager after generations were closed. -/
def closeAll (m : Manager) (generations : List Generation) : Manager :=
  m.publishOpen (m.openTable.filter fun entry => !generations.contains entry.1)

end Manager

/-- The life of a frame; the closed states are final. -/
inductive FrameState where
  | active
  | committed
  | discarded
  deriving DecidableEq, Inhabited, Repr

/-- The state as messages write it. -/
def FrameState.text : FrameState → String
  | active => "Open"
  | committed => "Committed"
  | discarded => "Discarded"

/-- How a write observer closes the frame it observes. -/
inductive Closing where
  | commit
  | discard
  deriving DecidableEq, Inhabited, Repr

/-- What is chosen when a frame is opened, or left to chance. -/
structure FrameOptions where
  readOnly : Bool := false
  /-- Reads, and the first write to each object, are reported. -/
  observed : Bool := false
  /-- What the observer does after it has reported a first write. -/
  onFirstWrite : Option Closing := none
  /-- How many first writes the observer lets pass before. -/
  patience : Nat := 0
  /-- The order in which the frame lists what it has touched: objects that stand here come first, in
  this order. -/
  listing : List ObjectId := []
  deriving DecidableEq, Inhabited, Repr

namespace FrameOptions

/-- What the observer does after the next first write. -/
def closing? (options : FrameOptions) : Option Closing :=
  if options.patience = 0 then options.onFirstWrite else none

/-- The options after a first write has been reported: an observer closes its frame once. -/
def afterFirstWrite (options : FrameOptions) : FrameOptions :=
  if options.patience = 0 then { options with onFirstWrite := none }
  else { options with patience := options.patience - 1 }

/-- A frame that is read-only stays so. -/
@[simp] theorem readOnly_afterFirstWrite (options : FrameOptions) :
    options.afterFirstWrite.readOnly = options.readOnly := by
  unfold afterFirstWrite
  split <;> rfl

/-- A frame that is observed stays so. -/
@[simp] theorem observed_afterFirstWrite (options : FrameOptions) :
    options.afterFirstWrite.observed = options.observed := by
  unfold afterFirstWrite
  split <;> rfl

/-- An observer that does nothing goes on doing nothing. -/
theorem afterFirstWrite_quiet {options : FrameOptions} (h : options.onFirstWrite = none) :
    options.afterFirstWrite.onFirstWrite = none := by
  unfold afterFirstWrite
  split
  · rfl
  · exact h

/-- An observer that does nothing does not close its frame. -/
theorem closing?_quiet {options : FrameOptions} (h : options.onFirstWrite = none) :
    options.closing? = none := by
  unfold closing?
  split
  · exact h
  · rfl

end FrameOptions

/-- A frame. -/
structure Frame where
  manager : ManagerId
  view : Visibility
  options : FrameOptions := {}
  state : FrameState := .active
  /-- The objects that the frame made or wrote, in order. -/
  touched : List ObjectId := []
  /-- The objects that the frame wrote, in order. -/
  written : List ObjectId := []
  /-- How many hold on to the frame; when nobody does, an open frame is discarded. -/
  holders : Nat := 1
  deriving DecidableEq, Inhabited, Repr

/-- The generation of the frame. -/
def Frame.generation (f : Frame) : Generation :=
  f.view.generation

/-- The frame is open. -/
def Frame.isActive (f : Frame) : Bool :=
  f.state == .active

/-- Objects in another order: those of the listing come first. -/
def arrange : List ObjectId → List ObjectId → List ObjectId
  | [], objects => objects
  | o :: listing, objects =>
    if objects.contains o then o :: arrange listing (objects.erase o) else arrange listing objects

/-- The touched objects as the frame lists them. -/
def Frame.listed (f : Frame) : List ObjectId :=
  arrange f.options.listing f.touched

/-- An object and the history of its values. -/
structure Object (α : Type) where
  manager : ManagerId
  typeName : String
  /-- Reconciles a frame's value with the one it branched from and one committed meanwhile. -/
  merge : α → α → α → Option α
  chain : Chain α
  /-- Its creation has been announced. -/
  announced : Bool := false

instance {α : Type} : Inhabited (Object α) :=
  ⟨{ manager := 0, typeName := "", merge := fun _ _ _ => none, chain := ⟨[]⟩ }⟩

/-- What a successful commit published. -/
structure CommitEvent where
  generation : Generation
  /-- Every object that the frame touched. -/
  changed : List ObjectId
  /-- The objects whose values were merged. -/
  merged : List ObjectId
  /-- The generations of the merged values, in the same order. -/
  mergedGenerations : List Generation
  deriving DecidableEq, Inhabited, Repr

/-- What observers are told. -/
inductive Event where
  | created (manager : ManagerId) (object : ObjectId) (typeName : String) (generation : Generation)
  | committed (manager : ManagerId) (event : CommitEvent)
  | read (object : ObjectId)
  | wrote (object : ObjectId)
  deriving DecidableEq, Inhabited, Repr

/-- All managers, frames and objects, the current frame, and what observers were told. -/
structure World (α : Type) where
  managers : List Manager := []
  frames : List Frame := []
  objects : List (Object α) := []
  current : Option FrameId := none
  log : List Event := []

instance {α : Type} : Inhabited (World α) := ⟨{}⟩

/-- Why the store refused a request. -/
inductive Refusal where
  | conflict (object : ObjectId) (typeName : String) (generation committed : Generation)
  | tooManyOpenFrames (limit : Nat)
  deriving DecidableEq, Inhabited, Repr

/-- The refusal as text, given the names of objects. -/
def Refusal.text (name : ObjectId → String) : Refusal → String
  | conflict object typeName generation committed =>
    "Write conflict on " ++ typeName ++ " " ++ name object ++ ": frame " ++
      generationText generation ++ " lost to committed " ++ generationText committed
  | tooManyOpenFrames limit => s!"Too many open frames: limit is {limit}"

/-- A misuse of the store, which stops the program that commits it. -/
inductive Violation where
  | closedFrame (action : String) (generation : Generation) (state : FrameState)
  | invisible (typeName : String) (object : ObjectId) (generation : Generation)
  | uncommitted (typeName : String) (object : ObjectId)
  | noBase (typeName : String) (object : ObjectId) (generation : Generation)
  | noFrame (typeName : String) (object : ObjectId)
  | readOnlyFrame (typeName : String) (object : ObjectId) (generation : Generation)
  | foreignFrame (typeName : String) (object : ObjectId) (generation : Generation)
  | otherFrameCurrent (entered current : Generation)
  deriving DecidableEq, Inhabited, Repr

/-- The violation as text, given the names of objects. -/
def Violation.text (name : ObjectId → String) : Violation → String
  | closedFrame action generation state =>
    "cannot " ++ action ++ " through frame " ++ generationText generation ++ ": frame is " ++
      state.text
  | invisible typeName object generation =>
    "no record of " ++ typeName ++ " " ++ name object ++ " is visible in frame " ++
      generationText generation ++ " (created after the frame opened?)"
  | uncommitted typeName object =>
    "no committed record of " ++ typeName ++ " " ++ name object ++ " is visible"
  | noBase typeName object generation =>
    "no record of " ++ typeName ++ " " ++ name object ++ " to branch from in frame " ++
      generationText generation
  | noFrame typeName object =>
    "cannot write " ++ typeName ++ " " ++ name object ++ ": no frame is open on this thread"
  | readOnlyFrame typeName object generation =>
    "cannot write " ++ typeName ++ " " ++ name object ++ ": frame " ++
      generationText generation ++ " is read-only"
  | foreignFrame typeName object generation =>
    "cannot write " ++ typeName ++ " " ++ name object ++ ": frame " ++
      generationText generation ++ " belongs to another manager"
  | otherFrameCurrent entered current =>
    "cannot enter frame " ++ generationText entered ++ " while frame " ++
      generationText current ++ " is current on this thread"

namespace World

variable {α : Type}

/-- The manager at a position. -/
def manager (w : World α) (m : ManagerId) : Manager :=
  w.managers[m]?.getD default

/-- The frame at a position. -/
def frame (w : World α) (f : FrameId) : Frame :=
  w.frames[f]?.getD default

/-- The object at a position. -/
def object (w : World α) (o : ObjectId) : Object α :=
  w.objects[o]?.getD default

/-- The world with a manager changed. -/
def modifyManager (w : World α) (m : ManagerId) (f : Manager → Manager) : World α :=
  { w with managers := w.managers.modify m f }

/-- The world with the counters of a manager changed. -/
def count (w : World α) (m : ManagerId) (f : Counters → Counters) : World α :=
  w.modifyManager m fun manager => { manager with counters := f manager.counters }

/-- The world with a frame changed. -/
def modifyFrame (w : World α) (f : FrameId) (g : Frame → Frame) : World α :=
  { w with frames := w.frames.modify f g }

/-- The world with an object changed. -/
def modifyObject (w : World α) (o : ObjectId) (f : Object α → Object α) : World α :=
  { w with objects := w.objects.modify o f }

/-- The world with the chain of an object changed. -/
def modifyChain (w : World α) (o : ObjectId) (f : Chain α → Chain α) : World α :=
  w.modifyObject o fun object => { object with chain := f object.chain }

/-- The world after observers were told something. -/
def tell (w : World α) (event : Event) : World α :=
  { w with log := w.log ++ [event] }

/-- The world with one more manager. -/
def addManager (w : World α) (config : Config) : World α :=
  { w with managers := w.managers ++ [{ config }] }

/-- The current frame. -/
def currentFrame? (w : World α) : Option Frame :=
  w.current.map w.frame

/-- The current frame if it belongs to a manager. -/
def currentFrameOf? (w : World α) (m : ManagerId) : Option FrameId :=
  w.current.filter fun f => (w.frame f).manager == m

end World

end VersionedObjects.Store
