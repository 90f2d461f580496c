import VersionedObjects.Proofs.Dynamic.Ancestry
import VersionedObjects.Proofs.Dynamic.LoadedTables
import VersionedObjects.Proofs.Shell.SessionSafety

/-!
# Sessions that break

A session from its start is intact after every line. So a line breaks it in two ways only: calls
nest too deep, or, while no frame is active, code of a loaded class writes a record that is not
guarded, for which a text gives reason in one of two ways. Main statement: `session_breaks`.
-/

namespace VersionedObjects.Shell

open Declaration (Module)
open Framing (Environment Pipeline Rule Summary)
open VersionedObjects.Dynamic (Careless ClassTable Failure LoadedClass LoadedFrom Runtime Slots
  bind_of_ok)
open Grammar (LoadError)
open Store (ObjectId)

variable {P : LoadedClass → Prop} {s : Session}

/-! ## Lines -/

/-- A line and what loading files gives when it is entered. -/
structure Input where
  load : String → Except LoadError Module
  line : String

/-- The module that an input declares. -/
def Input.declared? (input : Input) : Option Module :=
  match parseCommand input.line with
  | .ok command => command.declared? input.load
  | .error _ => none

/-- Runs an input. -/
def Session.enter (s : Session) (input : Input) : Except Problem String × Session :=
  s.run input.load input.line

/-- The session after inputs in order. -/
def Session.after (s : Session) (inputs : List Input) : Session :=
  inputs.foldl (fun s input => (s.enter input).2) s

/-- A line leaves a session intact, and breaks it only as expected. -/
theorem sustains_enter (hs : s.Intact P) {input : Input}
    (hm : ∀ module, input.declared? = some module → ∀ c, LoadedFrom module c → P c) :
    (s.enter input).2.Intact P ∧
      ∀ problem, (s.enter input).1 = .error problem → Expected problem (s.enter input).2 := by
  unfold Session.enter Session.run
  unfold Input.declared? at hm
  cases hparse : parseCommand input.line with
  | error e =>
    refine ⟨hs, fun problem hproblem failure hfailure => ?_⟩
    rw [← Except.error.inj hproblem] at hfailure
    cases hfailure
  | ok command =>
    rw [hparse] at hm
    have hperform := sustains_perform hm s hs
    dsimp only
    cases hresult : perform input.load command s with
    | ok text later =>
      rw [hresult] at hperform
      exact ⟨hperform.1, nofun⟩
    | error problem later =>
      rw [hresult] at hperform
      refine ⟨hperform.1, fun _ hproblem => ?_⟩
      rw [← Except.error.inj hproblem]
      exact hperform.2

/-- A session starts intact. -/
theorem intact_start (config : Store.Config) : (Session.start config).Intact P where
  tidy := Store.World.tidy_start Slots config
  outside := rfl
  opened := rfl
  held _ hentry := by cases hentry
  listed _ hg := by cases hg
  classes := ⟨fun _ hentry => (by cases hentry), fun _ hpart => by cases hpart⟩

/-- By induction on the inputs. -/
theorem Session.Intact.after (hs : s.Intact P) {inputs : List Input}
    (hm : ∀ input ∈ inputs, ∀ module, input.declared? = some module →
      ∀ c, LoadedFrom module c → P c) : (s.after inputs).Intact P := by
  induction inputs generalizing s with
  | nil => exact hs
  | cons input rest ih =>
    rw [List.forall_mem_cons] at hm
    exact ih (sustains_enter hs hm.1).1 hm.2

/-- **Sessions that break.** Whatever lines are entered and files loaded, a line misuses the store
in one case only, unless calls nest too deep: no frame is active, and unguarded code writes a
record. The code is of a class that was loaded from a declared module. Where the module is that of a
text, the class is framed, and either the getter of a framed property assigns `field` or another
class has taken the name of the record type. -/
theorem session_breaks (config : Store.Config) (inputs : List Input) (input : Input)
    (failure : Failure)
    (h : (((Session.start config).after inputs).enter input).1 = .error (.broken failure)) :
    let s := (((Session.start config).after inputs).enter input).2
    failure = .exhausted ∨
      (∃ typeName o, failure = .violation (.noFrame typeName o)) ∧ s.active = none ∧
        ∃ part ∈ s.runtime.instances, part.cls.Unguarded ∧
          ∃ declaring ∈ inputs ++ [input], ∃ m, declaring.declared? = some m ∧
            LoadedFrom m part.cls ∧
            ∀ source, Grammar.parseModule source = .ok m → Careless m part.cls := by
  let P (c : LoadedClass) : Prop := ∃ declaring ∈ inputs ++ [input], ∃ m,
    declaring.declared? = some m ∧ LoadedFrom m c
  have hm (declaring : Input) (hmem : declaring ∈ inputs ++ [input]) (m : Module)
      (hdeclared : declaring.declared? = some m) (c : LoadedClass) (hc : LoadedFrom m c) : P c :=
    ⟨declaring, hmem, m, hdeclared, hc⟩
  have hbefore : ((Session.start config).after inputs).Intact P :=
    (intact_start config).after fun declaring hmem => hm declaring (List.mem_append_left _ hmem)
  obtain ⟨hafter, hexpected⟩ := sustains_enter hbefore (hm input (by simp))
  refine (hexpected _ h failure rfl).imp_right fun ⟨hactive, hfailure, part, hpart, hcode⟩ => ?_
  obtain ⟨declaring, hmem, m, hdeclared, hloaded⟩ := hafter.classes.instances part hpart
  exact ⟨hfailure, hactive, part, hpart, hcode, declaring, hmem, m, hdeclared, hloaded,
    fun source hparse => Dynamic.careless_of_unguarded hparse hloaded hcode⟩

/-! ## A getter that writes -/

/-- A line entered where no file can be read. -/
def Input.typed (line : String) : Input :=
  ⟨fun path => .error (.unreadable path ""), line⟩

/-- A line that declares classes loads them. -/
theorem enter_declare {line source : String} {r : Runtime} {summary : Summary}
    (hcommand : parseCommand line = .ok (.declare source))
    (hload : s.runtime.loadSource manager source = (.ok summary, r)) :
    (s.enter (.typed line)).2 = { s with runtime := r } := by
  have hdeclare : perform (Input.typed line).load (.declare source) s =
      .ok (describeSummary summary) { s with runtime := r } := by
    change declare source s = _
    unfold declare
    rw [bind_of_ok (changeRuntime_apply _ s), hload]
    rfl
  unfold Session.enter Session.run
  rw [show parseCommand (Input.typed line).line = _ from hcommand]
  dsimp only
  rw [hdeclare]

/-- A framed class with a getter that assigns `field`. -/
def stampingBox : String :=
  "@Framed class Box \x7b var size: Int = 1 get() \x7b field = 2 return field \x7d \x7d"

/-- What the text declares. -/
def stampingModule : Module where
  classes := [
    { name := "Box"
      annotations := ["Framed"]
      properties := [
        { name := "size"
          type := .named "Int"
          mutable := true
          initializer := some (.literal (.int 1))
          getter := some { body := [.assign .backing (.literal (.int 2)), .return .backing] } }] }]

/-- The text is read as the class that it declares. -/
theorem parse_stampingBox : Grammar.parseModule stampingBox = .ok stampingModule := by
  decide +kernel

/-- The class is declared and a box is made; no frame is open. -/
def stampingInputs : List Input :=
  [.typed stampingBox, .typed ".new b Box"]

/-- The session after the class has been declared. -/
def stampingSession : Session :=
  let out := ((Pipeline.ofRules Environment.standard Rule.all).transform stampingModule).1.module
  let table := (ClassTable.load [] out out.classes).2
  { Session.start {} with runtime := (Session.start {}).runtime.setTable manager table }

/-- After the line the class is loaded. -/
theorem enter_stampingBox :
    ((Session.start {}).enter (.typed stampingBox)).2 = stampingSession := by
  have hload := Dynamic.loadSource_eq (r := (Session.start {}).runtime) (m := manager)
    parse_stampingBox (by rw [Pipeline.standard_eq]; decide +kernel)
    (show _ = Except.ok ["Box"] by rw [Pipeline.standard_eq]; decide +kernel)
  rw [enter_declare (by decide +kernel) hload, Pipeline.standard_eq]
  rfl

/-- To read the size of the box is to write it, without a frame. -/
theorem breaks_stampingBox :
    (((Session.start {}).after stampingInputs).enter (.typed ".get b size")).1 =
      .error (.broken (.violation (.noFrame "Box" 0))) := by
  rw [stampingInputs, Session.after, List.foldl_cons, List.foldl_cons, List.foldl_nil,
    enter_stampingBox]
  decide +kernel

/-- A getter that assigns `field` breaks the session outside of frames, and its class is to blame.
-/
theorem session_breaks_of_stampingBox :
    (((Session.start {}).after stampingInputs).enter (.typed ".get b size")).1 =
      .error (.broken (.violation (.noFrame "Box" 0))) ∧
    ∃ c, c.Unguarded ∧ Careless stampingModule c := by
  refine ⟨breaks_stampingBox, ?_⟩
  rcases session_breaks {} stampingInputs _ _ breaks_stampingBox with
    hexhausted | ⟨-, -, part, -, hcode, declaring, hmem, m, hdeclared, -, hcareless⟩
  · cases hexhausted
  · have hfirst : (Input.typed stampingBox).declared? = some stampingModule := by decide +kernel
    have hothers : (Input.typed ".new b Box").declared? = none ∧
        (Input.typed ".get b size").declared? = none := by decide +kernel
    simp only [stampingInputs, List.mem_append, List.mem_cons, List.not_mem_nil, or_false] at hmem
    rcases hmem with (rfl | rfl) | rfl
    · cases Option.some.inj (hfirst.symm.trans hdeclared)
      exact ⟨part.cls, hcode, hcareless stampingBox parse_stampingBox⟩
    · cases hothers.1.symm.trans hdeclared
    · cases hothers.2.symm.trans hdeclared

/-- The lines declare a class without a superclass whose getter ends, and the last line breaks the
session. -/
theorem session_broken_by_getter :
    stampingModule.Acyclic ∧ Grammar.parseModule stampingBox = .ok stampingModule ∧
    (((Session.start {}).after stampingInputs).enter (.typed ".get b size")).1 =
      .error (.broken (.violation (.noFrame "Box" 0))) :=
  ⟨Module.acyclic_of_rank (fun name => name.length) (by decide +kernel), parse_stampingBox,
    breaks_stampingBox⟩

end VersionedObjects.Shell
