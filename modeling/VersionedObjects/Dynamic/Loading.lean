import VersionedObjects.Dynamic.Construction
import VersionedObjects.Framing.Pipeline
import VersionedObjects.Grammar.Format

/-!
# Loading declarations

Declarations are framed and then loaded. If any class cannot be framed, none is loaded.
-/

namespace VersionedObjects.Dynamic

open Declaration
open Framing (FramingError Summary Pipeline)
open Grammar (LoadError)
open Store (ManagerId ObjectId Refusal)

/-- Why an operation on declarations or instances failed. -/
inductive ProgramError where
  | parse (error : LoadError)
  | framing (error : FramingError)
  | eval (error : EvalError)
  | frame (refusal : Refusal)
  deriving DecidableEq, Inhabited, Repr

/-- The error as text, given the names of objects. -/
def ProgramError.text (name : ObjectId → String) : ProgramError → String
  | parse error => "Parse error: " ++ error.text
  | framing error => "Transform error: " ++ error.text
  | eval error => "Evaluation error: " ++ error.text name
  | frame refusal => "Frame error: " ++ refusal.text name

namespace Runtime

/-- Loads the declared classes of a framed module for a manager. -/
def loadFramed (r : Runtime) (m : ManagerId) (module : Module) :
    Except EvalError (List String) × Runtime :=
  let (result, table) := (r.table m).load module module.classes
  (result, r.setTable m table)

/-- Frames the classes of a module and loads them. -/
def loadModule (r : Runtime) (m : ManagerId) (module : Module) :
    Except ProgramError Summary × Runtime :=
  let (outcome, _) := Pipeline.standard.transform module
  match outcome.summary.errors with
  | e :: _ => (.error (.framing e), r)
  | [] =>
    match r.loadFramed m outcome.module with
    | (.ok _, r) => (.ok outcome.summary, r)
    | (.error e, r) => (.error (.eval e), r)

/-- Frames and loads the classes that a text in declaration syntax declares. -/
def loadSource (r : Runtime) (m : ManagerId) (source : String) :
    Except ProgramError Summary × Runtime :=
  match Grammar.parseModule source with
  | .ok module => r.loadModule m module
  | .error e => (.error (.parse (.malformed e)), r)

end Runtime

/-- The value that a text denotes. -/
def Value.parse (source : String) : Except ProgramError Value := do
  let expr ← (Grammar.parseExpr source).mapError fun e => .parse (.malformed e)
  (constant [] expr).mapError .eval

end VersionedObjects.Dynamic
