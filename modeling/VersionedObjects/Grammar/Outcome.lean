/-!
# Reading text

A reader takes a text and gives a value with the rest of the text, or a fault. After a miss
another alternative may be tried; a halt ends the reading. A fault keeps places in the text with
what is known of them: first the place of the fault itself, then the places where the constructs
start that it lies in, from the innermost on.
-/

namespace VersionedObjects.Grammar

/-- What is known of a place where reading failed. -/
inductive Remark where
  /-- The character was expected there. -/
  | expected (c : Char)
  /-- The construct starts there. -/
  | construct (name : String)
  | nothing
  deriving DecidableEq, Inhabited, Repr

/-- Why a text could not be read. -/
structure Fault where
  /-- Places in the text, each given by the text from there on, from the innermost on. -/
  trace : List (List Char × Remark)
  deriving DecidableEq, Inhabited, Repr

namespace Fault

/-- A fault at the start of a text, of which nothing else is known. -/
def here (s : List Char) : Fault :=
  ⟨[(s, .nothing)]⟩

/-- A character is missing at the start of a text. -/
def missing (c : Char) (s : List Char) : Fault :=
  ⟨[(s, .expected c)]⟩

/-- The fault as one in a construct at the start of a text. -/
def within (construct : String) (s : List Char) (fault : Fault) : Fault :=
  ⟨fault.trace ++ [(s, .construct construct)]⟩

/-- The innermost character that was expected. -/
def expected? (fault : Fault) : Option Char :=
  fault.trace.findSome? fun (_, remark) =>
    match remark with
    | .expected c => some c
    | .construct _ | .nothing => none

/-- The innermost construct. -/
def construct? (fault : Fault) : Option String :=
  fault.trace.findSome? fun (_, remark) =>
    match remark with
    | .construct name => some name
    | .expected _ | .nothing => none

end Fault

/-- What a reader makes of a text. -/
inductive Outcome (α : Type) where
  | done (value : α) (rest : List Char)
  | miss (fault : Fault)
  | halt (fault : Fault)
  deriving DecidableEq, Repr

/-- A reader of values. -/
def Reader (α : Type) : Type :=
  List Char → Outcome α

namespace Reader

variable {α β : Type}

/-- Reads with one reader and goes on with another. -/
def bind (p : Reader α) (f : α → Reader β) : Reader β := fun s =>
  match p s with
  | .done a rest => f a rest
  | .miss fault => .miss fault
  | .halt fault => .halt fault

instance : Monad Reader where
  pure a := fun s => .done a s
  bind := bind

/-- In a sequence of readers the second reads on where the first has stopped. -/
theorem bind_apply (p : Reader α) (f : α → Reader β) (s : List Char) :
    (p >>= f) s = match p s with
      | .done a rest => f a rest
      | .miss fault => .miss fault
      | .halt fault => .halt fault := rfl

/-- Misses at the place it starts. -/
def fail : Reader α := fun s =>
  .miss (.here s)

/-- Tries one reader and, after a miss, another. -/
def orElse (p q : Reader α) : Reader α := fun s =>
  match p s with
  | .miss _ => q s
  | outcome => outcome

/-- Reads a value if there is one. -/
def optional (p : Reader α) : Reader (Option α) := fun s =>
  match p s with
  | .done a rest => .done (some a) rest
  | .miss _ => .done none s
  | .halt fault => .halt fault

/-- Turns a miss into a halt. -/
def commit (p : Reader α) : Reader α := fun s =>
  match p s with
  | .miss fault => .halt fault
  | outcome => outcome

/-- Names the construct that a reader reads. -/
def within (construct : String) (p : Reader α) : Reader α := fun s =>
  match p s with
  | .done a rest => .done a rest
  | .miss fault => .miss (fault.within construct s)
  | .halt fault => .halt (fault.within construct s)

/-- Accepts only values with a property; misses before a value without it. -/
def filter (p : Reader α) (keep : α → Bool) : Reader α := fun s =>
  match p s with
  | .done a rest => if keep a then .done a rest else .miss (.here s)
  | outcome => outcome

/-- Changes a value or misses before it. -/
def filterMap (p : Reader α) (f : α → Option β) : Reader β := fun s =>
  match p s with
  | .done a rest =>
    match f a with
    | some b => .done b rest
    | none => .miss (.here s)
  | .miss fault => .miss fault
  | .halt fault => .halt fault

/-- Reads values up to the first miss. A value of no length is a miss of the whole. -/
def many (p : Reader α) (s : List Char) : Outcome (List α) :=
  match p s with
  | .miss _ => .done [] s
  | .halt fault => .halt fault
  | .done a rest =>
    if rest.length < s.length then
      match many p rest with
      | .done as rest => .done (a :: as) rest
      | .miss fault => .miss fault
      | .halt fault => .halt fault
    else .miss (.here s)
termination_by s.length

/-- Reads one or more values with a separator between them; the rest starts with a separator
that no value follows. -/
def sepBy₁ (separator : Reader Unit) (p : Reader α) : Reader (List α) := do
  let first ← p
  let more ← many (do separator; p)
  return first :: more

/-- Reads values with a separator between them. -/
def sepBy (separator : Reader Unit) (p : Reader α) : Reader (List α) := do
  return (← optional (sepBy₁ separator p)).getD []

end Reader

end VersionedObjects.Grammar
