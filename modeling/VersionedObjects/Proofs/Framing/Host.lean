import Mathlib.Data.List.Nodup
import VersionedObjects.Framing.Pipeline
import VersionedObjects.Proofs.Computations

/-!
# What framing makes of a class

A class whose framing succeeds is replaced by a host and a record type, which are given here in
closed form: the host keeps what the class declares, its framed properties go through records,
and its only initializer block of its own builds the first record; the record type has a field
for each framed property.
-/

namespace VersionedObjects.Framing

open Declaration

/-! ## Changing properties by name -/

/-- The names of the properties differ. -/
def DistinctProperties (c : ClassDecl) : Prop :=
  (c.properties.map (·.name)).Nodup

/-- A property that is found by its name is one of the class and has the name. -/
theorem mem_of_property? {c : ClassDecl} {name : String} {p : Property}
    (h : c.property? name = some p) : p ∈ c.properties ∧ p.name = name :=
  ⟨List.mem_of_find?_eq_some h, by simpa using List.find?_some h⟩

/-- Where names differ a property is found by its name. -/
theorem find?_eq_some_of_mem {ps : List Property} (hps : (ps.map (·.name)).Nodup) {p : Property}
    (hp : p ∈ ps) : ps.find? (·.name == p.name) = some p := by
  cases h : ps.find? (·.name == p.name) with
  | none => exact absurd (List.find?_eq_none.mp h p hp) (by simp)
  | some q =>
    have hname : q.name = p.name := by simpa using List.find?_some h
    rw [List.inj_on_of_nodup_map hps (List.mem_of_find?_eq_some h) hp hname]

/-- Where names tell properties apart each is found by its name. -/
theorem property?_eq_some_of_mem {c : ClassDecl} (hc : DistinctProperties c) {p : Property}
    (hp : p ∈ c.properties) : c.property? p.name = some p :=
  find?_eq_some_of_mem hc hp

/-- A change of properties that keeps names changes what is found. -/
theorem find?_map_property {f : Property → Property} (hf : ∀ p, (f p).name = p.name)
    (ps : List Property) (name : String) :
    (ps.map f).find? (·.name == name) = (ps.find? (·.name == name)).map f := by
  rw [List.find?_map]
  congr 2
  funext p
  simp [hf]

/-- What changes no name of a property changes none of all. -/
theorem map_name_map {f : Property → Property} (hf : ∀ p, (f p).name = p.name)
    (ps : List Property) : (ps.map f).map (·.name) = ps.map (·.name) := by
  rw [List.map_map]
  exact List.map_congr_left fun p _ => hf p

namespace Rule

/-- The change of one property, made to those with certain names. -/
def onNames (names : List String) (f : Property → Property) (p : Property) : Property :=
  if names.contains p.name then f p else p

/-- What changes no name of a property changes none of those with certain names. -/
theorem onNames_name {f : Property → Property} (hf : ∀ p, (f p).name = p.name)
    (names : List String) (p : Property) : (onNames names f p).name = p.name := by
  unfold onNames
  split
  · exact hf p
  · rfl

/-- To change properties of no name changes none. -/
theorem onNames_nil (f : Property → Property) : onNames [] f = id := by
  funext p
  simp [onNames]

/-- The change of one property, made to the first of each of certain names. -/
def changeFirsts (f : Property → Property) : List String → List Property → List Property
  | _, [] => []
  | names, p :: rest =>
    if names.contains p.name then f p :: changeFirsts f (names.erase p.name) rest
    else p :: changeFirsts f names rest

section

variable {f : Property → Property} {names : List String}

/-- To change the first properties of no name changes none. -/
theorem changeFirsts_nil (f : Property → Property) (ps : List Property) :
    changeFirsts f [] ps = ps := by
  induction ps with
  | nil => rfl
  | cons p rest ih => simp [changeFirsts, ih]

/-- By induction on the properties, with the names of which none was met yet. -/
theorem mem_changeFirsts {ps : List Property} {q : Property} (h : q ∈ changeFirsts f names ps) :
    ∃ p ∈ ps, q = p ∨ q = f p := by
  induction ps generalizing names with
  | nil => cases h
  | cons p rest ih =>
    have hlater {names : List String} (h : q ∈ changeFirsts f names rest) :
        ∃ p' ∈ p :: rest, q = p' ∨ q = f p' :=
      (ih h).imp fun p' hp' => And.imp_left (List.mem_cons_of_mem p) hp'
    rw [changeFirsts] at h
    split at h
    · rcases List.mem_cons.mp h with rfl | h
      · exact ⟨p, List.mem_cons_self, .inr rfl⟩
      · exact hlater h
    · rcases List.mem_cons.mp h with rfl | h
      · exact ⟨q, List.mem_cons_self, .inl rfl⟩
      · exact hlater h

/-- What is the same before and after each change. -/
theorem map_changeFirsts {α : Type} {g : Property → α} (hf : ∀ p, g (f p) = g p)
    (names : List String) (ps : List Property) :
    (changeFirsts f names ps).map g = ps.map g := by
  induction ps generalizing names with
  | nil => rfl
  | cons p rest ih =>
    rw [changeFirsts]
    split
    · rw [List.map_cons, hf, ih, List.map_cons]
    · rw [List.map_cons, ih, List.map_cons]

/-- Names may be treated one by one. -/
theorem changeFirsts_modifyProperty (hf : ∀ p, (f p).name = p.name) {name : String}
    (hname : name ∉ names) (ps : List Property) :
    changeFirsts f names (modifyProperty name f ps) = changeFirsts f (name :: names) ps := by
  induction ps generalizing names with
  | nil => rfl
  | cons p rest ih =>
    by_cases hp : p.name = name
    · subst hp
      simp [modifyProperty, changeFirsts, hf, hname]
    · have hne : name ≠ p.name := fun h => hp h.symm
      have herase : name ∉ names.erase p.name := fun hmem => hname (List.mem_of_mem_erase hmem)
      simp [modifyProperty, changeFirsts, hp, hne, ih hname, ih herase]

/-- To change the same properties twice is to change them once by both changes. -/
theorem changeFirsts_changeFirsts (hf : ∀ p, (f p).name = p.name) (g : Property → Property)
    (names : List String) (ps : List Property) :
    changeFirsts g names (changeFirsts f names ps) = changeFirsts (g ∘ f) names ps := by
  induction ps generalizing names with
  | nil => rfl
  | cons p rest ih =>
    by_cases hp : p.name ∈ names
    · simp [changeFirsts, hp, hf, ih]
    · simp [changeFirsts, hp, ih]

/-- A property that is found by its name is the one that changes. -/
theorem find?_changeFirsts (hf : ∀ p, (f p).name = p.name) (names : List String)
    (ps : List Property) (name : String) :
    (changeFirsts f names ps).find? (·.name == name) =
      (ps.find? (·.name == name)).map (onNames names f) := by
  induction ps generalizing names with
  | nil => rfl
  | cons p rest ih =>
    by_cases hname : p.name = name
    · subst hname
      by_cases hp : p.name ∈ names
      · simp [changeFirsts, onNames, hp, hf]
      · simp [changeFirsts, onNames, hp]
    · by_cases hp : p.name ∈ names
      · have hrest : (rest.find? (·.name == name)).map (onNames (names.erase p.name) f) =
            (rest.find? (·.name == name)).map (onNames names f) := by
          refine Option.map_congr fun q hq => ?_
          have hqname : q.name ≠ p.name := by
            intro h
            exact hname (h ▸ by simpa using List.find?_some hq)
          simp [onNames, List.mem_erase_of_ne hqname]
        simp [changeFirsts, hp, hf, hname, ih, hrest]
      · simp [changeFirsts, hp, hname, ih]

/-- Where names differ the first property of a name is the only one. -/
theorem changeFirsts_eq_map {ps : List Property} (hps : (ps.map (·.name)).Nodup) :
    changeFirsts f names ps = ps.map (onNames names f) := by
  induction ps generalizing names with
  | nil => rfl
  | cons p rest ih =>
    rw [List.map_cons, List.nodup_cons] at hps
    have hrest : rest.map (onNames (names.erase p.name) f) = rest.map (onNames names f) := by
      refine List.map_congr_left fun q hq => ?_
      have hqname : q.name ≠ p.name := fun h => hps.1 (h ▸ List.mem_map_of_mem hq)
      simp [onNames, List.mem_erase_of_ne hqname]
    by_cases hp : p.name ∈ names
    · simp [changeFirsts, onNames, hp, ih hps.2, ← hrest]
    · simp [changeFirsts, onNames, hp, ih hps.2]

end

/-! ## The rules on a draft -/

/-- The draft with the first property of each name changed. -/
def Draft.changeFirsts (d : Draft) (f : Property → Property) (names : List String) : Draft :=
  { d with host := { d.host with properties := Rule.changeFirsts f names d.host.properties } }

/-- To change the first properties of no name leaves a draft as it is. -/
theorem Draft.changeFirsts_nil (d : Draft) (f : Property → Property) :
    Draft.changeFirsts d f [] = d := by
  rw [Draft.changeFirsts, Rule.changeFirsts_nil]

/-- To change the first property of one name and then those of others is to change all of them. -/
theorem Draft.changeFirsts_modifyProperty {f : Property → Property}
    (hf : ∀ p, (f p).name = p.name) (d : Draft) {name : String} {names : List String}
    (hname : name ∉ names) :
    Draft.changeFirsts (Draft.modifyProperty d name f) f names =
      Draft.changeFirsts d f (name :: names) := by
  simp only [Draft.changeFirsts, Draft.modifyProperty,
    Rule.changeFirsts_modifyProperty hf hname]

/-- A change of one property leaves alone what is found by other names. -/
theorem Draft.property?_modifyProperty {f : Property → Property}
    (hf : ∀ p, (f p).name = p.name) (d : Draft) {name other : String} (hne : other ≠ name) :
    (Draft.modifyProperty d name f).host.property? other = d.host.property? other := by
  have hsingle : Rule.modifyProperty name f d.host.properties =
      Rule.changeFirsts f [name] d.host.properties := by
    rw [← Rule.changeFirsts_modifyProperty hf List.not_mem_nil, Rule.changeFirsts_nil]
  rw [Draft.modifyProperty, ClassDecl.property?, hsingle, find?_changeFirsts hf]
  refine (Option.map_congr fun p hp => ?_).trans Option.map_id'
  have hname : p.name = other := by simpa using List.find?_some hp
  simp [onNames, hname, hne]

/-- The property without its initializer. -/
def withoutInitializer (p : Property) : Property :=
  { p with initializer := none }

/-- The assignment to the first record that stands for the initializer of a property. -/
def initialStore (recordType : TypeExpr) (p : Property) : List Stmt :=
  (p.initializer.map fun value => .assign (firstRecordField recordType p.name) value).toList

/-- By induction on the framed properties, each of which is still as the class declares it when
its initializer is taken. -/
theorem takeInitializers_eq {d : Draft} {ps : List Property} (hps : (ps.map (·.name)).Nodup)
    (hfound : ∀ p ∈ ps, d.host.property? p.name = some p) :
    takeInitializers d (ps.map (·.name)) =
      (.ok (ps.flatMap (initialStore d.recordType)),
        Draft.changeFirsts d withoutInitializer (ps.map (·.name))) := by
  induction ps generalizing d with
  | nil => simp [takeInitializers, Draft.changeFirsts_nil]
  | cons p rest ih =>
    rw [List.map_cons, List.nodup_cons] at hps
    rw [List.forall_mem_cons] at hfound
    have hrest : ∀ q ∈ rest,
        (Draft.modifyProperty d p.name withoutInitializer).host.property? q.name = some q := by
      intro q hq
      have hne : q.name ≠ p.name := fun h => hps.1 (h ▸ List.mem_map_of_mem hq)
      rw [Draft.property?_modifyProperty (f := withoutInitializer) (fun _ => rfl) d hne]
      exact hfound.2 q hq
    have hnext := ih hps.2 hrest
    rw [Draft.changeFirsts_modifyProperty (f := withoutInitializer) (fun _ => rfl) d
      hps.1] at hnext
    rw [List.map_cons, takeInitializers, hfound.1]
    have hmodify : (Draft.modifyProperty d p.name fun p => { p with initializer := none }) =
        Draft.modifyProperty d p.name withoutInitializer := rfl
    dsimp only
    rw [hmodify, hnext]
    rfl

/-- The accessors of framed properties are redirected one after the other, if there are such
properties. -/
theorem redirectEach_eq {d : Draft} {names : List String} (hnames : names.Nodup)
    (hmem : ∀ name ∈ names, (d.host.property? name).isSome = true) :
    redirectEach d names =
      (.ok (), Draft.changeFirsts d (redirectProperty d.recordType) names) := by
  induction names generalizing d with
  | nil => simp [redirectEach, Draft.changeFirsts_nil]
  | cons name rest ih =>
    rw [List.nodup_cons] at hnames
    rw [List.forall_mem_cons] at hmem
    have hkeep : ∀ p, (redirectProperty d.recordType p).name = p.name := fun _ => rfl
    have hrest : ∀ other ∈ rest, ((Draft.modifyProperty d name
        (redirectProperty d.recordType)).host.property? other).isSome = true := by
      intro other hother
      have hne : other ≠ name := fun h => hnames.1 (h ▸ hother)
      rw [Draft.property?_modifyProperty hkeep d hne]
      exact hmem.2 other hother
    have hfound : (d.host.property? name).isNone = false := by
      simpa using hmem.1
    rw [redirectEach, hfound, if_neg Bool.false_ne_true, ih hnames.2 hrest]
    exact congrArg _ (Draft.changeFirsts_modifyProperty hkeep d hnames.1)

/-- The field of the record type for a property. -/
def recordSlot (p : Property) : Field :=
  { name := p.name, type := p.type }

/-- The record has a slot for each framed property. -/
theorem recordFields_eq {d : Draft} {ps : List Property} (hframed : d.framed = ps.map (·.name))
    (hfound : ∀ p ∈ ps, d.host.property? p.name = some p) :
    recordFields d = .ok (ps.map recordSlot) := by
  rw [recordFields, hframed]
  clear hframed
  induction ps with
  | nil => rfl
  | cons p rest ih =>
    rw [List.forall_mem_cons] at hfound
    rw [List.map_cons, List.mapM_cons, hfound.1, ih hfound.2]
    rfl

end Rule

/-! ## The host and the record type -/

open Rule

/-- The property of a host in place of one of its class. -/
def hostProperty (recordType : TypeExpr) (ps : List Property) : Property → Property :=
  onNames (ps.map (·.name)) (redirectProperty recordType ∘ withoutInitializer)

/-- A property keeps its name when its class is framed. -/
@[simp] theorem hostProperty_name (recordType : TypeExpr) (ps : List Property) (p : Property) :
    (hostProperty recordType ps p).name = p.name :=
  onNames_name (f := redirectProperty recordType ∘ withoutInitializer) (fun _ => rfl) _ p

/-- The initializer block that builds the first record. -/
def chainBlock (recordType : TypeExpr) (ps : List Property) : List Stmt :=
  .assign chainExpr (.newChain (.newRecord recordType)) ::
    ps.flatMap (initialStore recordType) ++ [.notifyCreated]

/-- Properties that a class may keep in records: its own, each once, with a stored value. -/
structure Framable (c : ClassDecl) (ps : List Property) : Prop where
  mem : ∀ p ∈ ps, p ∈ c.properties
  nodup : (ps.map (·.name)).Nodup
  backed : ∀ p ∈ ps, p.hasBackingField = true

/-- A class is replaced by a host and a record type that hold certain of its properties in
records. -/
structure FramesInto (c : ClassDecl) (recordType : TypeExpr) (ps : List Property)
    (host record : ClassDecl) : Prop where
  host_name : host.name = c.name
  host_supertypes : host.supertypes = c.supertypes ++ [.named framedMarker]
  host_properties : host.properties = c.properties.map (hostProperty recordType ps)
  host_fields : host.fields =
    c.fields ++ [{ name := recordField, type := recordType, isHidden := true }]
  host_constructors : host.constructors = c.constructors
  host_initializers : host.initializers = chainBlock recordType ps :: c.initializers
  host_origin : host.origin = c.origin
  record_name : record.name = recordType.name
  record_fields : record.fields = ps.map recordSlot
  record_origin : record.origin ≠ .declared
  framable : Framable c ps

/-- What rules make of a draft, apart from what is counted. -/
def Pipeline.outcome (d : Draft) : List Rule → Except FramingError Draft
  | [] => .ok d
  | rule :: rest =>
    if rule.applies d then
      match rule.apply d with
      | (.ok _, next) => do
        rule.validate next
        outcome next rest
      | (.error e, _) => .error e
    else outcome d rest

/-- By induction on the rules: the counts have no bearing on what becomes of the draft. -/
theorem Pipeline.runRules_fst (stats : Association RuleStats) (d : Draft) (rules : List Rule) :
    (runRules stats d rules).1 = outcome d rules := by
  induction rules generalizing stats d with
  | nil => rfl
  | cons rule rest ih =>
    rw [runRules, outcome]
    cases happlies : rule.applies d with
    | false => simpa using ih stats d
    | true =>
      simp only [Bool.not_true, Bool.false_eq_true, if_false, if_true]
      cases hresult : rule.apply d with
      | mk result next =>
        cases result with
        | error e => simp [bind, Except.bind]
        | ok changed =>
          cases hvalid : rule.validate next with
          | error e => simp [hvalid, bind, Except.bind]
          | ok _ => cases changed <;> simp [hvalid, bind, Except.bind, pure, Except.pure, ih]

/-- A rule that applies and does not fail hands its draft to the next. -/
theorem Pipeline.runRules_cons {stats last : Association RuleStats} {d e : Draft} {rule : Rule}
    {rest : List Rule} (happlies : rule.applies d = true)
    (h : runRules stats d (rule :: rest) = (.ok e, last)) :
    ∃ changed next stats', rule.apply d = (.ok changed, next) ∧
      runRules stats' next rest = (.ok e, last) := by
  rw [runRules, happlies] at h
  simp only [Bool.not_true, Bool.false_eq_true, if_false] at h
  cases hresult : rule.apply d with
  | mk result next =>
    rw [hresult] at h
    cases result with
    | error cause => simp [bind, Except.bind] at h
    | ok changed =>
      dsimp only at h
      split at h
      · exact ⟨_, _, _, rfl, h⟩
      · exact ⟨_, _, _, rfl, h⟩
      · cases h

/-- A property that stores no value outside records. -/
def Detached (p : Property) : Prop :=
  p.initializer = none ∧ reachesBacking p = false

/-- The operations on the record chain that a class lacks. -/
def missingOperations (c : ClassDecl) (recordType : TypeExpr) : List Method :=
  [firstFrameRecordMethod recordType, prependFrameRecordMethod recordType].filter
    fun m => (c.method? m.name).isNone

/-- The host of a class: the first property of each framed name goes through records. -/
def hostOf (c : ClassDecl) (recordType : TypeExpr) (ps : List Property) : ClassDecl :=
  { c with
    supertypes := c.supertypes ++ [.named framedMarker]
    properties := changeFirsts (redirectProperty recordType ∘ withoutInitializer)
      (ps.map (·.name)) c.properties
    fields := c.fields ++ [{ name := recordField, type := recordType, isHidden := true }]
    methods := c.methods ++ missingOperations c recordType
    initializers := chainBlock recordType ps :: c.initializers }

/-- The record type of the class of a draft. -/
def recordOf (d : Draft) (ps : List Property) : ClassDecl :=
  { name := d.recordType.name
    supertypes := [.named d.baseRecord.name]
    fields := ps.map recordSlot
    constructors := [{ superCall := some [] }]
    methods := [createMethod d.recordType, assignMethod d]
    origin := .recordOf d.hostIndex }

/-- A draft whose class is framed. -/
def Draft.finished (d : Draft) (ps : List Property) : Draft :=
  { d with host := hostOf d.host d.recordType ps, record := some (recordOf d ps) }

section

variable {d e : Draft} {ps : List Property}

/-- The first rule makes the record type of the framed properties. -/
theorem Rule.apply_synthesizeRecordType (hbase : hasZeroArgConstructor d.baseRecord = true)
    (hframed : d.framed = ps.map (·.name))
    (hfound : ∀ p ∈ ps, d.host.property? p.name = some p) :
    synthesizeRecordType.apply d = (.ok true, { d with record := some (recordOf d ps) }) := by
  change applySynthesizeRecordType d = _
  rw [applySynthesizeRecordType, hbase, recordFields_eq hframed hfound]
  rfl

/-- The rule for initializers takes those of framed properties away and adds the initializers of the
chain. -/
theorem Rule.apply_moveInitializers (hframed : d.framed = ps.map (·.name))
    (hps : (ps.map (·.name)).Nodup) (hfound : ∀ p ∈ ps, d.host.property? p.name = some p) :
    moveInitializers.apply d = (.ok true, { d with host := { d.host with
      properties := changeFirsts withoutInitializer (ps.map (·.name)) d.host.properties
      initializers := chainBlock d.recordType ps :: d.host.initializers } }) := by
  have htaken := takeInitializers_eq hps hfound
  rw [← hframed] at htaken ⊢
  change applyMoveInitializers d = _
  rw [applyMoveInitializers, htaken]
  rfl

/-- The rule for accessors redirects those of framed properties. -/
theorem Rule.apply_redirectAccessors (hframed : d.framed = ps.map (·.name))
    (hps : (ps.map (·.name)).Nodup)
    (hfound : ∀ p ∈ ps, (d.host.property? p.name).isSome = true) :
    redirectAccessors.apply d = (.ok !d.framed.isEmpty,
      Draft.changeFirsts d (redirectProperty d.recordType) (ps.map (·.name))) := by
  have hredirected := redirectEach_eq hps (by simpa using hfound)
  rw [← hframed] at hredirected ⊢
  change applyRedirectAccessors d = _
  rw [applyRedirectAccessors, hredirected]
  rfl

/-- The rule for initializers is content if no framed property has one and the host announces
itself. -/
theorem Rule.validate_moveInitializers :
    moveInitializers.validate d = .ok () ↔
      (∀ p ∈ d.host.properties, p.name ∈ d.framed → p.initializer = none) ∧
      announces d.host = true := by
  have hnone : d.host.properties.find? (fun p => Draft.isFramed d p && p.initializer.isSome) =
      none ↔ ∀ p ∈ d.host.properties, p.name ∈ d.framed → p.initializer = none := by
    simp [Draft.isFramed]
  rw [← hnone, validate]
  split
  · next hsome => simp [hsome]
  · next hempty => cases hannounces : announces d.host <;> simp [hempty]

/-- The rule for accessors is content if no framed property reaches for its own storage. -/
theorem Rule.validate_redirectAccessors :
    redirectAccessors.validate d = .ok () ↔
      ∀ p ∈ d.host.properties, p.name ∈ d.framed → reachesBacking p = false := by
  have hnone : d.host.properties.find? (fun p => Draft.isFramed d p && reachesBacking p) =
      none ↔ ∀ p ∈ d.host.properties, p.name ∈ d.framed → reachesBacking p = false := by
    simp [Draft.isFramed]
  rw [← hnone, validate]
  split
  · next hsome => simp [hsome]
  · next hempty => simp [hempty]

/-- A draft comes through its rules if it passes the first one and comes through the others. -/
theorem Pipeline.outcome_cons {rule : Rule} {rest : List Rule} {next : Draft} {changed : Bool}
    (happlies : rule.applies d = true) (happly : rule.apply d = (.ok changed, next)) :
    outcome d (rule :: rest) = .ok e ↔ rule.validate next = .ok () ∧ outcome next rest = .ok e := by
  rw [outcome, if_pos happlies, happly]
  refine bind_eq_ok_iff.trans ⟨fun ⟨_, hvalid, hrest⟩ => ⟨hvalid, hrest⟩, ?_⟩
  exact fun ⟨hvalid, hrest⟩ => ⟨(), hvalid, hrest⟩

/-- A rule that a draft passes can be left out of account. -/
theorem Pipeline.outcome_cons_of_valid {rule : Rule} {rest : List Rule} {next : Draft}
    {changed : Bool} (happlies : rule.applies d = true)
    (happly : rule.apply d = (.ok changed, next)) (hvalid : rule.validate next = .ok ()) :
    outcome d (rule :: rest) = .ok e ↔ outcome next rest = .ok e :=
  (outcome_cons happlies happly).trans (and_iff_right hvalid)

/-- A record type needs a base that can be constructed without arguments. -/
theorem Pipeline.outcome_all_of_base (hrecord : d.record = none)
    (hbase : hasZeroArgConstructor d.baseRecord = false) :
    outcome d Rule.all = .error
      { className := d.host.name, cause := .missingBaseConstructor d.baseRecord.name } := by
  have happlies : synthesizeRecordType.applies d = true := by rw [applies, hrecord]; rfl
  have happly : synthesizeRecordType.apply d = (.error
      { className := d.host.name, cause := .missingBaseConstructor d.baseRecord.name }, d) := by
    change applySynthesizeRecordType d = _
    rw [applySynthesizeRecordType, hbase]
    rfl
  rw [Rule.all, outcome, if_pos happlies, happly]

/-- Redirection has no bearing on initializers. -/
theorem Rule.initializer_eq_none_iff (recordType : TypeExpr) (names : List String)
    (ps : List Property) (keep : String → Prop) :
    (∀ p ∈ changeFirsts (redirectProperty recordType) names ps, keep p.name →
        p.initializer = none) ↔
      ∀ p ∈ ps, keep p.name → p.initializer = none := by
  have hmap := map_changeFirsts (f := redirectProperty recordType)
    (g := fun p : Property => (p.name, p.initializer)) (fun _ => rfl) names ps
  have hpairs (qs : List Property) : (∀ p ∈ qs, keep p.name → p.initializer = none) ↔
      ∀ pair ∈ qs.map fun p : Property => (p.name, p.initializer), keep pair.1 → pair.2 = none := by
    simp
  rw [hpairs, hmap, ← hpairs]

/-- The block that builds the first record announces the object. -/
theorem Rule.announces_chainBlock {c : ClassDecl} {recordType : TypeExpr} {ps : List Property}
    (h : c.initializers.head? = some (chainBlock recordType ps)) : announces c = true := by
  have hlast : (chainBlock recordType ps).getLast? = some .notifyCreated := List.getLast?_concat
  rw [announces, h, Option.bind_some, hlast]

/-- Initializers are taken before accessors are redirected. -/
theorem properties_hostOf (c : ClassDecl) (recordType : TypeExpr) (ps : List Property) :
    (hostOf c recordType ps).properties = changeFirsts (redirectProperty recordType)
      (ps.map (·.name)) (changeFirsts withoutInitializer (ps.map (·.name)) c.properties) :=
  (changeFirsts_changeFirsts (f := withoutInitializer) (fun _ => rfl) ..).symm

/-- **All rules on a draft.** They succeed just where the record type can extend its base and the
framed properties of the host store nothing outside records, and there is one thing that comes
out. -/
theorem Pipeline.outcome_all_eq_ok_iff (hrecord : d.record = none)
    (hnot : d.host.isFramed = false) (hframed : d.framed = ps.map (·.name))
    (hps : (ps.map (·.name)).Nodup) (hfound : ∀ p ∈ ps, d.host.property? p.name = some p) :
    outcome d Rule.all = .ok e ↔ hasZeroArgConstructor d.baseRecord = true ∧
      (∀ p ∈ (hostOf d.host d.recordType ps).properties, p.name ∈ d.framed → Detached p) ∧
      e = d.finished ps := by
  obtain ⟨hmarker, hfield⟩ : d.host.hasSupertype framedMarker = false ∧
      (d.host.field? recordField).isSome = false := by
    simpa only [ClassDecl.isFramed, Bool.or_eq_false_iff] using hnot
  cases hbase : hasZeroArgConstructor d.baseRecord with
  | false => simp [outcome_all_of_base hrecord hbase]
  | true =>
    have hfree : (d.host.field? recordField).isNone = true := by simpa using hfield
    have hunmarked : (!d.host.hasSupertype framedMarker) = true := by rw [hmarker]; rfl
    have hlater : ∀ p ∈ ps, ((changeFirsts withoutInitializer (ps.map (·.name))
        d.host.properties).find? (·.name == p.name)).isSome = true := by
      intro p hp
      rw [find?_changeFirsts (f := withoutInitializer) (fun _ => rfl), Option.isSome_map]
      exact Option.isSome_of_eq_some (hfound p hp)
    rw [and_iff_right rfl, Rule.all]
    have happlies : synthesizeRecordType.applies d = true := by rw [applies, hrecord]; rfl
    refine Iff.trans (outcome_cons_of_valid happlies
      (apply_synthesizeRecordType hbase hframed hfound) ?_) ?_
    · simp [validate, recordOf, hframed]
    refine Iff.trans (outcome_cons_of_valid hfree rfl rfl) ?_
    refine Iff.trans (outcome_cons_of_valid rfl rfl rfl) ?_
    refine Iff.trans (outcome_cons rfl (apply_moveInitializers hframed hps hfound)) ?_
    refine Iff.trans (and_congr_right'
      (outcome_cons rfl (apply_redirectAccessors hframed hps hlater))) ?_
    refine Iff.trans (and_congr_right' (and_congr_right' (outcome_cons hunmarked rfl))) ?_
    rw [validate_moveInitializers, validate_redirectAccessors]
    have hfinished : d.finished ps = { d with
        host := { d.host with
          supertypes := d.host.supertypes ++ [.named framedMarker]
          properties := changeFirsts (redirectProperty d.recordType) (ps.map (·.name))
            (changeFirsts withoutInitializer (ps.map (·.name)) d.host.properties)
          fields := d.host.fields ++
            [{ name := recordField, type := d.recordType, isHidden := true }]
          methods := d.host.methods ++ missingOperations d.host d.recordType
          initializers := chainBlock d.recordType ps :: d.host.initializers }
        record := some (recordOf d ps) } := by
      rw [← properties_hostOf]
      rfl
    have hempty := initializer_eq_none_iff d.recordType (ps.map (·.name))
      (changeFirsts withoutInitializer (ps.map (·.name)) d.host.properties) (· ∈ d.framed)
    rw [properties_hostOf]
    constructor
    · rintro ⟨⟨hnone, -⟩, hnot, -, he⟩
      refine ⟨fun p hp hname => ⟨hempty.mpr hnone p hp hname, hnot p hp hname⟩, ?_⟩
      rw [← Except.ok.inj he]
      exact hfinished.symm
    · rintro ⟨hdetached, rfl⟩
      have hnone := hempty.mp fun p hp hname => (hdetached p hp hname).1
      have hnot := fun p hp hname => (hdetached p hp hname).2
      exact ⟨⟨hnone, announces_chainBlock rfl⟩, hnot, rfl, congrArg Except.ok hfinished.symm⟩

end

/-- Where names differ, every property of a framed name is redirected. -/
theorem exists_of_mem_hostOf {c : ClassDecl} (hc : DistinctProperties c) {recordType : TypeExpr}
    {ps : List Property} {q : Property} (hq : q ∈ (hostOf c recordType ps).properties)
    (hname : q.name ∈ ps.map (·.name)) :
    ∃ p ∈ c.properties, p.name = q.name ∧
      q = redirectProperty recordType (withoutInitializer p) := by
  have hq : q ∈ c.properties.map (hostProperty recordType ps) :=
    changeFirsts_eq_map (f := redirectProperty recordType ∘ withoutInitializer) hc ▸ hq
  obtain ⟨p, hp, rfl⟩ := List.mem_map.mp hq
  rw [hostProperty_name] at hname
  exact ⟨p, hp, (hostProperty_name ..).symm, if_pos (List.contains_iff_mem.mpr hname)⟩

/-- What the rules make of a class whose properties have different names. -/
theorem framesInto_hostOf {d : Draft} (hd : DistinctProperties d.host) {ps : List Property}
    (hps : Framable d.host ps) :
    FramesInto d.host d.recordType ps (hostOf d.host d.recordType ps) (recordOf d ps) where
  host_name := rfl
  host_supertypes := rfl
  host_properties := changeFirsts_eq_map hd
  host_fields := rfl
  host_constructors := rfl
  host_initializers := rfl
  host_origin := rfl
  record_name := rfl
  record_fields := rfl
  record_origin := nofun
  framable := hps

end VersionedObjects.Framing
