import VersionedObjects.Store.Generation

/-!
# Record chains

An object keeps its values in a chain: one record for each generation that wrote it, in ascending
order. A chain is never empty. The record of a discarded frame is taken out, or, when it is the
only one, stays and is hidden from every reader.
-/

namespace VersionedObjects.Store

/-- The value of an object in one generation. -/
structure Record (α : Type) where
  generation : Generation
  /-- The generation of the record that this one was branched from. -/
  base : Option Generation
  value : α
  /-- The frame that wrote the record was discarded. -/
  discarded : Bool := false
  deriving DecidableEq, Inhabited, Repr

/-- A reader with the view sees the record. -/
def Record.visibleTo {α : Type} (r : Record α) (view : Visibility) : Bool :=
  !r.discarded && view.canSee r.generation

/-- The records of one object, ascending by generation. -/
structure Chain (α : Type) where
  records : List (Record α)
  deriving DecidableEq, Inhabited, Repr

namespace Chain

variable {α : Type}

/-- A chain of one record. -/
def singleton (r : Record α) : Chain α :=
  ⟨[r]⟩

/-- The number of records. -/
def size (c : Chain α) : Nat :=
  c.records.length

/-- The oldest record. -/
def first? (c : Chain α) : Option (Record α) :=
  c.records.head?

/-- The generations of the records, newest first. -/
def generations (c : Chain α) : List Generation :=
  c.records.reverse.map (·.generation)

/-- The record of exactly a generation. -/
def find? (c : Chain α) (g : Generation) : Option (Record α) :=
  c.records.find? (·.generation == g)

/-- The newest record with a property. -/
def newest? (c : Chain α) (p : Record α → Bool) : Option (Record α) :=
  c.records.reverse.find? p

/-- The newest record that a view shows. -/
def select? (c : Chain α) (view : Visibility) : Option (Record α) :=
  c.newest? (·.visibleTo view)

/-- Links a record at its place, unless its generation has one. -/
def link (c : Chain α) (r : Record α) : Chain α :=
  if (c.find? r.generation).isSome then c
  else
    ⟨c.records.takeWhile (·.generation < r.generation) ++
      r :: c.records.dropWhile (·.generation < r.generation)⟩

/-- A record of the generation can be taken out. -/
def canUnlink (c : Chain α) (g : Generation) : Bool :=
  1 < c.size && (c.find? g).isSome

/-- Takes out the record of a generation unless it is the only one left. -/
def unlink (c : Chain α) (g : Generation) : Chain α :=
  if c.canUnlink g then ⟨c.records.filter (·.generation != g)⟩ else c

/-- Changes the record of a generation. -/
def modify (c : Chain α) (g : Generation) (f : Record α → Record α) : Chain α :=
  ⟨c.records.map fun r => if r.generation = g then f r else r⟩

/-- Removes the record of a discarded generation from every view. -/
def discard (c : Chain α) (g : Generation) : Chain α :=
  if c.canUnlink g then c.unlink g else c.modify g fun r => { r with discarded := true }

end Chain

end VersionedObjects.Store
