import VersionedObjects.Dynamic.Loading
import VersionedObjects.Report.Basic

/-!
# Reports of errors

Every error is reported by its kind and its text, some with what they are about.
-/

namespace VersionedObjects.Report

open VersionedObjects.Dynamic (EvalError ProgramError)
open Framing (Cause FramingError)
open Grammar (LoadError)
open Store (ObjectId Refusal)

/-- The kind of a load error. -/
def loadKind : LoadError → String
  | .malformed _ => "Syntax"
  | .invalidJson => "Json"
  | .unreadable .. => "Io"
  | .unknownFormat _ => "UnknownFormat"

/-- A load error. -/
def loadError : LoadError → Json
  | .malformed e =>
    .object
      [("error", .string "Syntax"), ("line", count e.line), ("column", count e.column),
        ("message", .string e.text)]
  | .invalidJson => error "Json"
  | e => errorText (loadKind e) e.text

/-- The kind of a framing error. -/
def framingKind : Cause → String
  | .missingBackingField _ => "MissingBackingField"
  | .missingRecordBase _ => "MissingRecordBase"
  | .missingBaseConstructor _ => "MissingBaseConstructor"
  | .invalidIdentifier _ => "InvalidIdentifier"
  | .reservedName _ => "ReservedName"
  | .rule .. => "Rule"

/-- A framing error with its class. -/
def framingError (e : FramingError) : Json :=
  .object
    [("error", .string (framingKind e.cause)), ("class", .string e.className),
      ("message", .string e.text)]

/-- The kind of an evaluation error. -/
def evalKind : EvalError → String
  | .unknownClass _ => "UnknownClass"
  | .unknownProperty .. => "UnknownProperty"
  | .readOnly .. => "ReadOnly"
  | .typeMismatch .. => "TypeMismatch"
  | .unboundName _ => "UnboundLocal"
  | .missingReturn .. => "MissingReturn"
  | .arity .. => "Arity"
  | .noOpenFrame .. => "NoOpenFrame"
  | .notVisible .. => "NotVisible"
  | .unsupported _ => "EvalUnsupported"
  | .load _ => "Load"

/-- An evaluation error, given the names of objects. -/
def evalError (name : ObjectId → String) (e : EvalError) : Json :=
  errorText (evalKind e) (e.text name)

/-- The kind of an error of the whole program. -/
def programKind : ProgramError → String
  | .parse _ => "Parse"
  | .framing _ => "Transform"
  | .eval _ => "Eval"
  | .frame _ => "Frame"

/-- An error of the whole program, given the names of objects. -/
def programError (name : ObjectId → String) (e : ProgramError) : Json :=
  errorText (programKind e) (e.text name)

/-- A refusal of the store, given the names of objects in its text and in its members. -/
def refusal (textName name : ObjectId → String) (e : Refusal) : Json :=
  match e with
  | .conflict o typeName g committed =>
    .object
      [("error", .string "Conflict"), ("message", .string (e.text textName)),
        ("object", .string (name o)), ("type", .string typeName), ("generation", count g),
        ("committed", count committed)]
  | .tooManyOpenFrames _ => errorText "TooManyOpenFrames" (e.text textName)

end VersionedObjects.Report
