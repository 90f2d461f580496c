import VersionedObjects.Framing.Facts
import VersionedObjects.Framing.Rule
import VersionedObjects.Number.Binary64

/-!
# Framing a module

Every framed class goes through the rules and is replaced by its host and its record type. A
class that fails is left as it was and gives an error. A pipeline keeps count of its rules.
-/

namespace VersionedObjects.Framing

open Declaration
open Number (Binary64)

/-- The class that record types extend. -/
def stateRecord : String := "StateRecord"

/-- Classes known besides those of the module, by name. -/
abbrev Environment := Association ClassDecl

namespace Environment

/-- The environment with one more class. -/
def register (env : Environment) (c : ClassDecl) : Environment :=
  env.put c.name c

/-- The environment that knows the base of record types. -/
def standard : Environment :=
  register [] { name := stateRecord, constructors := [{}] }

/-- The class of a name, in the module or else in the environment. -/
def resolve? (env : Environment) (m : Module) (name : String) : Option ClassDecl :=
  m.class? name <|> env.get? name

end Environment

/-- Names that generated members claim. -/
def reservedNames : List String :=
  [recordField, firstFrameRecord, prependFrameRecord, "frame_record", "new", "new_in"]

/-- The name is an ASCII identifier. -/
def isIdentifier (name : String) : Bool :=
  match name.toList with
  | [] => false
  | c :: rest => (c.isAlpha || c == '_') && rest.all fun c => c.isAlphanum || c == '_'

/-- Checks the name of a class or property. -/
def checkName (className name : String) : Except FramingError Unit :=
  if reservedNames.contains name then .error { className, cause := .reservedName name }
  else if !isIdentifier name then .error { className, cause := .invalidIdentifier name }
  else .ok ()

/-- What a rule has done in a pipeline. -/
structure RuleStats where
  applications : Nat := 0
  transformations : Nat := 0
  errors : Nat := 0
  deriving DecidableEq, Inhabited, Repr

/-- The share of applications that changed a class. -/
def RuleStats.successRate (s : RuleStats) : Binary64 :=
  if s.applications = 0 then .zero else .ofRatio false s.transformations s.applications

/-- Rules in the order they run, what they have done, and how record types are named. -/
structure Pipeline where
  rules : List Rule := []
  stats : Association RuleStats := []
  environment : Environment := Environment.standard
  recordBase : String := stateRecord
  recordSuffix : String := "Record"
  deriving Inhabited

/-- A framed class and its record type. -/
structure FramedClass where
  host : ClassDecl
  record : ClassDecl
  framed : List String
  deriving Inhabited

/-- What became of the classes of a module. -/
structure Summary where
  seen : Nat := 0
  transformed : Nat := 0
  skipped : Nat := 0
  /-- The number of framed properties. -/
  properties : Nat := 0
  errors : List FramingError := []
  deriving DecidableEq, Inhabited, Repr

namespace Summary

/-- No class failed. -/
def success (s : Summary) : Bool :=
  s.errors.isEmpty

/-- The summary of two modules. -/
def merge (a b : Summary) : Summary where
  seen := a.seen + b.seen
  transformed := a.transformed + b.transformed
  skipped := a.skipped + b.skipped
  properties := a.properties + b.properties
  errors := a.errors ++ b.errors

end Summary

/-- A module after framing: each host is followed by its record type. -/
structure Outcome where
  module : Module
  transformed : List FramedClass
  summary : Summary
  deriving Inhabited

namespace Pipeline

/-- The pipeline with one more rule, whose counts start anew. -/
def addRule (p : Pipeline) (rule : Rule) : Pipeline :=
  { p with rules := p.rules ++ [rule], stats := p.stats.put rule.name {} }

/-- The pipeline with its rules by falling priority. -/
def sorted (p : Pipeline) : Pipeline :=
  { p with rules := p.rules.mergeSort fun a b => b.priority ≤ a.priority }

/-- The pipeline of given rules over an environment. -/
def ofRules (environment : Environment) (rules : List Rule) : Pipeline :=
  rules.foldl addRule { environment }

/-- The pipeline of all rules. -/
def standard (environment : Environment := Environment.standard) : Pipeline :=
  (ofRules environment Rule.all).sorted

/-- The pipeline with all counts at zero. -/
def clearStats (p : Pipeline) : Pipeline :=
  { p with stats := p.stats.map fun entry => (entry.1, {}) }

/-- Counts an event of a rule. -/
def count (stats : Association RuleStats) (rule : Rule) (f : RuleStats → RuleStats) :
    Association RuleStats :=
  stats.put rule.name (f ((stats.get? rule.name).getD {}))

/-- Runs rules over a draft up to the first failure. -/
def runRules (stats : Association RuleStats) (d : Draft) :
    List Rule → Except FramingError Draft × Association RuleStats
  | [] => (.ok d, stats)
  | rule :: rest =>
    if !rule.applies d then runRules stats d rest
    else
      let stats := count stats rule fun s => { s with applications := s.applications + 1 }
      let (result, d) := rule.apply d
      match (do let changed ← result; rule.validate d; return changed) with
      | .ok true =>
        runRules (count stats rule fun s => { s with transformations := s.transformations + 1 }) d
          rest
      | .ok false => runRules stats d rest
      | .error e => (.error e, count stats rule fun s => { s with errors := s.errors + 1 })

/-- The framed properties of a class: those of its facts that it declares, each once. -/
def selectProperties (c : ClassDecl) : List String → List String →
    Except FramingError (List String)
  | selected, [] => .ok selected
  | selected, name :: rest => do
    checkName c.name name
    match c.property? name with
    | none => selectProperties c selected rest
    | some p =>
      if !p.hasBackingField then .error { className := c.name, cause := .missingBackingField name }
      else if selected.contains name then selectProperties c selected rest
      else selectProperties c (selected ++ [name]) rest

/-- The draft of a class to frame, none if there is nothing to frame. -/
def draft? (p : Pipeline) (m : Module) (facts : ClassFacts) (hostIndex : Nat) (c : ClassDecl) :
    Except FramingError (Option Draft) :=
  if c.isFramed || !facts.framed then .ok none
  else do
    let framed ← selectProperties c [] facts.properties
    if framed.isEmpty then return none
    checkName c.name c.name
    match p.environment.resolve? m p.recordBase with
    | none => .error { className := c.name, cause := .missingRecordBase p.recordBase }
    | some baseRecord =>
      return some { host := c, hostIndex, framed, baseRecord
                    recordType := .named (c.name ++ p.recordSuffix) }

/-- Frames one class of a module; none if there is nothing to frame. -/
def transformClass (p : Pipeline) (m : Module) (facts : ClassFacts) (hostIndex : Nat)
    (c : ClassDecl) : Except FramingError (Option FramedClass) × Pipeline :=
  match p.draft? m facts hostIndex c with
  | .error e => (.error e, p)
  | .ok none => (.ok none, p)
  | .ok (some d) =>
    let (result, stats) := runRules p.stats d p.rules
    let p := { p with stats }
    match result with
    | .error e => (.error e, p)
    | .ok d =>
      match d.record with
      | some record => (.ok (some { host := d.host, record, framed := d.framed }), p)
      | none =>
        let cause := Cause.rule "ClassTransformer" "pipeline produced no record type"
        (.error { className := c.name, cause }, p)

/-- Frames classes of a module in order, given what came out so far. -/
def transformClasses (m : Module) (facts : Facts) (p : Pipeline) (out : Outcome) :
    List ClassDecl → Outcome × Pipeline
  | [] => (out, p)
  | c :: rest =>
    let s := { out.summary with seen := out.summary.seen + 1 }
    let (result, p) :=
      p.transformClass m ((facts.get? c.name).getD {}) out.module.classes.length c
    match result with
    | .ok (some framed) =>
      let out : Outcome :=
        { module := ⟨out.module.classes ++ [framed.host, framed.record]⟩
          transformed := out.transformed ++ [framed]
          summary := { s with transformed := s.transformed + 1
                              properties := s.properties + framed.framed.length } }
      transformClasses m facts p out rest
    | .ok none =>
      let out : Outcome :=
        { out with module := ⟨out.module.classes ++ [c]⟩
                   summary := { s with skipped := s.skipped + 1 } }
      transformClasses m facts p out rest
    | .error e =>
      let out : Outcome :=
        { out with module := ⟨out.module.classes ++ [c]⟩
                   summary := { s with errors := s.errors ++ [e] } }
      transformClasses m facts p out rest

/-- Frames a module by given facts. -/
def transformWith (p : Pipeline) (facts : Facts) (m : Module) : Outcome × Pipeline :=
  transformClasses m facts p { module := {}, transformed := [], summary := {} } m.classes

/-- Frames a module by its own facts. -/
def transform (p : Pipeline) (m : Module) : Outcome × Pipeline :=
  p.transformWith (Facts.analyze m) m

end Pipeline

end VersionedObjects.Framing
