/-!
# Generations and visibility

Every frame has a generation, a number from one clock, and records carry the generation of the
frame that wrote them. A reader sees what is older than itself, unless it was open when the reader
started, and a frame also sees its own records.
-/

namespace VersionedObjects.Store

/-- A point on the logical clock of a frame manager. -/
abbrev Generation := Nat

/-- A generation as messages write it. -/
def generationText (g : Generation) : String :=
  s!"g{g}"

/-- Puts a generation into an ascending list, once. -/
def insertGeneration (g : Generation) : List Generation → List Generation
  | [] => [g]
  | h :: rest =>
    if g < h then g :: h :: rest
    else if g = h then h :: rest
    else h :: insertGeneration g rest

/-- The generations of a list in ascending order, each once. -/
def ascending (generations : List Generation) : List Generation :=
  generations.foldl (fun sorted g => insertGeneration g sorted) []

/-- What a reader may see. -/
structure Visibility where
  /-- The reader's generation; for a view of the present, the next one of the clock. -/
  generation : Generation
  /-- The generations that were open when the reader started, ascending. -/
  invalid : List Generation
  /-- The reader sees its own generation. -/
  own : Bool
  deriving DecidableEq, Inhabited, Repr

namespace Visibility

/-- The view of a frame. -/
def ofFrame (generation : Generation) (invalid : List Generation) : Visibility :=
  { generation, invalid, own := true }

/-- The view of everything committed before a generation. -/
def snapshot (upper : Generation) (invalid : List Generation) : Visibility :=
  { generation := upper, invalid, own := false }

/-- The view admits records of a generation. -/
def canSee (view : Visibility) (g : Generation) : Bool :=
  (view.own && g == view.generation) || (g < view.generation && !view.invalid.contains g)

end Visibility

end VersionedObjects.Store
