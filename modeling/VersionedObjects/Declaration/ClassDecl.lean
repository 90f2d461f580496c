import VersionedObjects.Declaration.Expr

/-!
# Classes and modules

A module is a list of classes. Sources declare annotations, supertypes and properties; fields,
constructors, methods and initializer blocks come from structured input or from framing, which
gives a class a record chain in the hidden field `$record`.
-/

namespace VersionedObjects.Declaration

/-- The hidden field that holds the record chain of a framed class. -/
def recordField : String := "$record"

/-- The supertype that marks framed classes. -/
def framedMarker : String := "Framed"

/-- The annotation that asks for framing. -/
def framedMark : String := "Framed"

/-- The interface of record types. -/
def recordInterface : String := "Record"

/-- The method that gives the record chain. -/
def firstFrameRecord : String := "firstFrameRecord"

/-- The method that links a record into the chain. -/
def prependFrameRecord : String := "prependFrameRecord"

/-- A custom getter or setter; a setter names its parameter. -/
structure Accessor where
  param : Option String := none
  body : List Stmt
  deriving BEq, Inhabited, Repr

/-- The word `field` occurs in the accessor. -/
def Accessor.usesBacking (accessor : Accessor) : Bool :=
  accessor.body.any (·.usesBacking)

/-- A property of a class. -/
structure Property where
  name : String
  type : TypeExpr
  /-- Declared `var`, not `val`. -/
  mutable : Bool
  initializer : Option Expr := none
  getter : Option Accessor := none
  setter : Option Accessor := none
  deriving BEq, Inhabited, Repr

/-- The property stores a value: it has an initializer, no custom getter, or an accessor with the
word `field`. -/
def Property.hasBackingField (p : Property) : Bool :=
  p.initializer.isSome || p.getter.elim true (·.usesBacking) || p.setter.any (·.usesBacking)

/-- A plain field. -/
structure Field where
  name : String
  type : TypeExpr
  isHidden : Bool := false
  deriving BEq, DecidableEq, Inhabited, Repr

/-- A parameter of a constructor or method. -/
structure Parameter where
  name : String
  type : TypeExpr
  deriving BEq, DecidableEq, Inhabited, Repr

/-- A constructor, with the arguments for the superclass when it delegates. -/
structure Constructor where
  params : List Parameter := []
  superCall : Option (List Expr) := none
  body : List Stmt := []
  deriving BEq, Inhabited, Repr

/-- The constructor takes no argument. -/
def Constructor.isZeroArg (c : Constructor) : Bool :=
  c.params.isEmpty

/-- How a method takes its object. -/
inductive Receiver where
  | shared
  | mutable
  /-- The method belongs to the class. -/
  | absent
  deriving BEq, DecidableEq, Inhabited, Repr

/-- A method. -/
structure Method where
  name : String
  params : List Parameter := []
  returns : Option TypeExpr := none
  body : List Stmt
  /-- The interface that the method belongs to. -/
  implements : Option String := none
  receiver : Receiver := .shared
  deriving BEq, Inhabited, Repr

/-- Where a class comes from. -/
inductive Origin where
  | declared
  /-- The record type of the framed class at a position in the module. -/
  | recordOf (hostIndex : Nat)
  deriving BEq, DecidableEq, Inhabited, Repr

/-- A class. -/
structure ClassDecl where
  name : String
  annotations : List String := []
  supertypes : List TypeExpr := []
  properties : List Property := []
  fields : List Field := []
  constructors : List Constructor := []
  methods : List Method := []
  /-- Blocks that run in order when an object is constructed. -/
  initializers : List (List Stmt) := []
  origin : Origin := .declared
  deriving BEq, Inhabited, Repr

namespace ClassDecl

/-- The class has a supertype of the name. -/
def hasSupertype (c : ClassDecl) (name : String) : Bool :=
  c.supertypes.any (·.name == name)

/-- The class has an annotation of the name. -/
def hasMark (c : ClassDecl) (name : String) : Bool :=
  c.annotations.contains name

/-- The first property of the name. -/
def property? (c : ClassDecl) (name : String) : Option Property :=
  c.properties.find? (·.name == name)

/-- The first field of the name. -/
def field? (c : ClassDecl) (name : String) : Option Field :=
  c.fields.find? (·.name == name)

/-- The first method of the name. -/
def method? (c : ClassDecl) (name : String) : Option Method :=
  c.methods.find? (·.name == name)

/-- The first supertype other than the framed marker. -/
def superclass? (c : ClassDecl) : Option TypeExpr :=
  c.supertypes.find? (·.name != framedMarker)

/-- The class bears the framed marker or the record chain. -/
def isFramed (c : ClassDecl) : Bool :=
  c.hasSupertype framedMarker || (c.field? recordField).isSome

end ClassDecl

/-- A set of classes in order. -/
structure Module where
  classes : List ClassDecl := []
  deriving BEq, Inhabited, Repr

/-- The first class of the name. -/
def Module.class? (m : Module) (name : String) : Option ClassDecl :=
  m.classes.find? (·.name == name)

end VersionedObjects.Declaration
