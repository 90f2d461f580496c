import VersionedObjects.Association
import VersionedObjects.Declaration.ClassDecl

/-!
# Framing facts

Which classes are framed, and which of their properties move into records. By default these are
the classes marked `@Framed` and their mutable properties, except those that a framed ancestor
owns already.
-/

namespace VersionedObjects.Framing

open Declaration

/-- The facts of one class. -/
structure ClassFacts where
  framed : Bool := false
  /-- The framed properties in order of declaration. -/
  properties : List String := []
  deriving DecidableEq, Inhabited, Repr

/-- The facts of classes by name. -/
abbrev Facts := Association ClassFacts

/-- The ancestors from a name on, nearest first, up to the first name seen before. -/
def ancestorsFrom (m : Module) : Nat → List String → Option String → List ClassDecl
  | 0, _, _ | _, _, none => []
  | fuel + 1, seen, some name =>
    if seen.contains name then []
    else
      match m.class? name with
      | none => []
      | some ancestor =>
        ancestor ::
          ancestorsFrom m fuel (name :: seen) (ancestor.superclass?.map (·.name))

/-- The ancestors of a class that a module declares, nearest first. Their names differ, so there
are no more than the module has classes. -/
def ancestors (m : Module) (c : ClassDecl) : List ClassDecl :=
  ancestorsFrom m m.classes.length [c.name] (c.superclass?.map (·.name))

/-- The class is framed or asks for it. -/
def isOrWillBeFramed (c : ClassDecl) : Bool :=
  c.hasMark framedMark || c.isFramed

/-- The names of the mutable properties of framed ancestors. -/
def inheritedFramed (m : Module) (c : ClassDecl) : List String :=
  (((ancestors m c).filter isOrWillBeFramed).flatMap (·.properties)).filter (·.mutable)
    |>.map (·.name)

/-- The facts of one class of a module. -/
def classFacts (m : Module) (c : ClassDecl) : ClassFacts :=
  if !c.hasMark framedMark || c.isFramed then {}
  else
    let inherited := inheritedFramed m c
    { framed := true
      properties := (c.properties.filter fun p => p.mutable && !inherited.contains p.name).map
        (·.name) }

/-- The facts of every class of a module. -/
def Facts.analyze (m : Module) : Facts :=
  Association.ofPairs (m.classes.map fun c => (c.name, classFacts m c))

end VersionedObjects.Framing
