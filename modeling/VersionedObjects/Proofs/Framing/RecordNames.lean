import Mathlib.Data.List.Nodup
import VersionedObjects.Dynamic.LoadedClass
import VersionedObjects.Proofs.Framing.FramedModule

/-!
# The names of record types

A record type is named after its class and put into the module right behind it, whatever else the
module declares. Record types never take each other's names, but a declared class may bear the
name of one: the names of the framed module differ just where none does, and a record type is
the first class of its name just where none does up to its own class. Main statement:
`Pipeline.names_of_framed`.
-/

namespace VersionedObjects.Framing

open Declaration

/-! ## One class -/

/-- What the rules keep of the draft of a class: its name, its place in the module, and the type
that its record chain and its record are of. The class may be known to have a chain. -/
structure Draft.Belongs (d : Draft) (name : String) (i : Nat) (recordType : TypeExpr)
    (chained : Prop) : Prop where
  host_name : d.host.name = name
  host_index : d.hostIndex = i
  record_type : d.recordType = recordType
  chain_type : ∀ field, d.host.field? recordField = some field → field.type = recordType
  chain : chained → (d.host.field? recordField).isSome = true
  record : ∀ r, d.record = some r → r.name = recordType.name ∧ r.origin = .recordOf i

section

variable {d : Draft} {name : String} {i : Nat} {recordType : TypeExpr} {chained : Prop}

/-- A change of the host that keeps its name and fields. -/
theorem Draft.Belongs.of_host (h : d.Belongs name i recordType chained) {host : ClassDecl}
    (hname : host.name = d.host.name) (hfields : host.fields = d.host.fields) :
    Draft.Belongs { d with host } name i recordType chained := by
  have hfield : host.field? recordField = d.host.field? recordField := by
    rw [ClassDecl.field?, hfields]
    rfl
  exact
    { host_name := hname.trans h.host_name
      host_index := h.host_index
      record_type := h.record_type
      chain_type := by simpa only [hfield] using h.chain_type
      chain := by simpa only [hfield] using h.chain
      record := h.record }

/-- What else is known of the chain. -/
theorem Draft.Belongs.of_chain (h : d.Belongs name i recordType chained) {chained' : Prop}
    (hchain : chained' → chained ∨ (d.host.field? recordField).isSome = true) :
    d.Belongs name i recordType chained' :=
  { h with chain := fun h' => (hchain h').elim h.chain id }

namespace Rule

/-- A draft stays with its class when a property is changed. -/
theorem Draft.belongs_modifyProperty (h : d.Belongs name i recordType chained)
    (property : String) (f : Property → Property) :
    (Draft.modifyProperty d property f).Belongs name i recordType chained :=
  h.of_host rfl rfl

/-- By induction on the properties whose initializers are taken. -/
theorem belongs_takeInitializers (h : d.Belongs name i recordType chained)
    (properties : List String) :
    (takeInitializers d properties).2.Belongs name i recordType chained := by
  induction properties generalizing d with
  | nil => exact h
  | cons property rest ih =>
    rw [takeInitializers]
    split
    · exact h
    · exact ih (Draft.belongs_modifyProperty h property _)

/-- By induction on the properties that are redirected. -/
theorem belongs_redirectEach (h : d.Belongs name i recordType chained)
    (properties : List String) :
    (redirectEach d properties).2.Belongs name i recordType chained := by
  induction properties generalizing d with
  | nil => exact h
  | cons property rest ih =>
    rw [redirectEach]
    split
    · exact h
    · exact ih (Draft.belongs_modifyProperty h property _)

/-- A draft stays with its class when the record type is made. -/
theorem belongs_synthesizeRecordType (h : d.Belongs name i recordType chained) :
    (applySynthesizeRecordType d).2.Belongs name i recordType chained := by
  unfold applySynthesizeRecordType
  split
  · exact h
  split
  · exact h
  · refine { h with record := fun r hr => ?_ }
    obtain rfl := Option.some.inj hr
    exact ⟨congrArg TypeExpr.name h.record_type, congrArg Origin.recordOf h.host_index⟩

/-- The chain that a draft has already comes before one that is added. -/
theorem belongs_installRecordField (h : d.Belongs name i recordType chained) (chained' : Prop) :
    (applyInstallRecordField d).2.Belongs name i recordType chained' := by
  have hfield : (applyInstallRecordField d).2.host.field? recordField =
      (d.host.field? recordField <|>
        some { name := recordField, type := d.recordType, isHidden := true }) := by
    simp [applyInstallRecordField, ClassDecl.field?, List.find?_append]
  refine { h with chain_type := fun field hsome => ?_, chain := fun _ => ?_ }
  · rw [hfield] at hsome
    cases hold : d.host.field? recordField with
    | none =>
      rw [hold] at hsome
      obtain rfl := Option.some.inj hsome
      exact h.record_type
    | some old =>
      rw [hold] at hsome
      exact h.chain_type field (hold.trans hsome)
  · rw [hfield]
    cases d.host.field? recordField <;> rfl

/-- What a rule keeps of a draft, whether it fails or not. -/
theorem belongs_apply (h : d.Belongs name i recordType chained) (rule : Rule) :
    (rule.apply d).2.Belongs name i recordType (chained ∨ rule = installRecordField) := by
  have hkeep {e : Draft} (he : e.Belongs name i recordType chained)
      (hne : rule ≠ installRecordField) :
      e.Belongs name i recordType (chained ∨ rule = installRecordField) :=
    he.of_chain fun hor => .inl (hor.resolve_right hne)
  cases rule with
  | synthesizeRecordType => exact hkeep (belongs_synthesizeRecordType h) nofun
  | installRecordField => exact belongs_installRecordField h _
  | installChainOperations => exact hkeep (h.of_host rfl rfl) nofun
  | moveInitializers =>
    have htaken := belongs_takeInitializers h d.framed
    refine hkeep ?_ nofun
    change (applyMoveInitializers d).2.Belongs name i recordType chained
    unfold applyMoveInitializers
    dsimp only
    split
    · next hresult => rwa [hresult] at htaken
    · next hresult =>
      rw [hresult] at htaken
      exact htaken.of_host rfl rfl
  | redirectAccessors =>
    have hredirected := belongs_redirectEach h d.framed
    refine hkeep ?_ nofun
    change (applyRedirectAccessors d).2.Belongs name i recordType chained
    unfold applyRedirectAccessors
    split
    · next hresult => rwa [hresult] at hredirected
    · next hresult => rwa [hresult] at hredirected
  | addFramedMarker => exact hkeep (h.of_host rfl rfl) nofun

end Rule

/-- By induction on the rules, whatever they are. -/
theorem Pipeline.belongs_runRules (h : d.Belongs name i recordType chained)
    {rules : List Rule} {stats last : Association RuleStats} {e : Draft}
    (hrun : runRules stats d rules = (.ok e, last)) :
    e.Belongs name i recordType (chained ∨ .installRecordField ∈ rules) := by
  induction rules generalizing d chained stats with
  | nil =>
    cases hrun
    exact h.of_chain fun hor => .inl (hor.resolve_right List.not_mem_nil)
  | cons rule rest ih =>
    have hsplit {f : Draft}
        (hf : f.Belongs name i recordType (chained ∨ rule = .installRecordField))
        {stats' : Association RuleStats} (hrest : runRules stats' f rest = (.ok e, last)) :
        e.Belongs name i recordType (chained ∨ .installRecordField ∈ rule :: rest) := by
      refine (ih hf hrest).of_chain fun hor => .inl ?_
      rw [List.mem_cons] at hor
      tauto
    cases happlies : rule.applies d with
    | true =>
      obtain ⟨_, next, _, happly, hrest⟩ := runRules_cons happlies hrun
      have hnext := Rule.belongs_apply h rule
      rw [happly] at hnext
      exact hsplit hnext hrest
    | false =>
      rw [runRules, happlies] at hrun
      refine hsplit (h.of_chain fun hor => hor.imp_right ?_) hrun
      -- the one reason not to add a chain is that there is one
      rintro rfl
      simpa [Rule.applies] using happlies

end

/-- A class is framed at a position of the module that comes out, by rules that name record types
with a suffix. -/
structure FramedAt (rules : List Rule) (suffix : String) (i : Nat) (c : ClassDecl)
    (t : FramedClass) : Prop where
  host_name : t.host.name = c.name
  record_name : t.record.name = c.name ++ suffix
  record_origin : t.record.origin = .recordOf i
  chain_type : ∀ field, t.host.field? recordField = some field →
    field.type = .named (c.name ++ suffix)
  chain : .installRecordField ∈ rules → (t.host.field? recordField).isSome = true

namespace Pipeline

/-- The draft of a class that has no chain yet. -/
theorem belongs_draft {p : Pipeline} {m : Module} {facts : ClassFacts} {i : Nat} {c : ClassDecl}
    {d : Draft} (h : p.draft? m facts i c = .ok (some d)) :
    d.Belongs c.name i (.named (c.name ++ p.recordSuffix)) False := by
  unfold draft? at h
  split at h
  · cases h
  · next hnot =>
    have hfield : c.field? recordField = none := by
      have hframed : c.isFramed = false := by simp_all
      simpa [ClassDecl.isFramed] using (Bool.or_eq_false_iff.mp hframed).2
    simp only [bind, Except.bind] at h
    split at h
    · cases h
    split at h
    · cases h
    split at h
    · cases h
    split at h
    · cases h
    · cases h
      exact
        { host_name := rfl
          host_index := rfl
          record_type := rfl
          chain_type := fun field hsome => by rw [hfield] at hsome; cases hsome
          chain := False.elim
          record := fun _ hr => by cases hr }

/-- A class that comes through a pipeline is framed at its place. -/
theorem framedAt_of_transformClass {p : Pipeline} {m : Module} {facts : ClassFacts} {i : Nat}
    {c : ClassDecl} {t : FramedClass}
    (h : (p.transformClass m facts i c).1 = .ok (some t)) :
    FramedAt p.rules p.recordSuffix i c t := by
  unfold transformClass at h
  split at h
  · cases h
  · cases h
  · next d hd =>
    dsimp only at h
    split at h
    · cases h
    · next e hrun =>
      have he := belongs_runRules (belongs_draft hd) (Prod.ext hrun rfl)
      split at h
      · next record hrecord =>
        cases h
        obtain ⟨hname, horigin⟩ := he.record record hrecord
        exact ⟨he.host_name, hname, horigin, he.chain_type, fun hrule => he.chain (.inr hrule)⟩
      · cases h

/-- Framing changes of a pipeline only its counts. -/
theorem transformClass_snd (p : Pipeline) (m : Module) (facts : ClassFacts) (i : Nat)
    (c : ClassDecl) : ∃ stats, (p.transformClass m facts i c).2 = { p with stats } := by
  unfold transformClass
  split
  · exact ⟨p.stats, rfl⟩
  · exact ⟨p.stats, rfl⟩
  · dsimp only
    split
    · exact ⟨_, rfl⟩
    · split <;> exact ⟨_, rfl⟩

end Pipeline

/-! ## The classes of a module -/

/-- Classes and what they become from a position on: each stays as it is or is replaced by its
host and its record type. -/
inductive Expands (rules : List Rule) (suffix : String) :
    Nat → List ClassDecl → List ClassDecl → List FramedClass → Prop where
  | nil {i} : Expands rules suffix i [] [] []
  | kept {i classes out framed} (c : ClassDecl) :
      Expands rules suffix (i + 1) classes out framed →
      Expands rules suffix i (c :: classes) (c :: out) framed
  | framed {i classes out framed} {c : ClassDecl} {t : FramedClass} :
      FramedAt rules suffix i c t → Expands rules suffix (i + 2) classes out framed →
      Expands rules suffix i (c :: classes) (t.host :: t.record :: out) (t :: framed)

/-- By induction on the classes that are left. -/
theorem Pipeline.expands_transformClasses (p : Pipeline) (m : Module) (facts : Facts)
    (out : Outcome) (classes : List ClassDecl) :
    ∃ added framed,
      (transformClasses m facts p out classes).1.module.classes = out.module.classes ++ added ∧
      (transformClasses m facts p out classes).1.transformed = out.transformed ++ framed ∧
      Expands p.rules p.recordSuffix out.module.classes.length classes added framed := by
  induction classes generalizing p out with
  | nil => exact ⟨[], [], by simp [transformClasses], by simp [transformClasses], .nil⟩
  | cons c rest ih =>
    obtain ⟨stats, hnext⟩ :=
      p.transformClass_snd m ((facts.get? c.name).getD {}) out.module.classes.length c
    unfold transformClasses
    dsimp only
    rw [hnext]
    split
    · next t ht =>
      obtain ⟨added, framed, hadded, hframed, hrest⟩ := ih _ _
      refine ⟨t.host :: t.record :: added, t :: framed, ?_, ?_,
        .framed (framedAt_of_transformClass ht) ?_⟩
      · rw [hadded]; simp
      · rw [hframed]; simp
      · simpa using hrest
    · obtain ⟨added, framed, hadded, hframed, hrest⟩ := ih _ _
      refine ⟨c :: added, framed, ?_, hframed, .kept c ?_⟩
      · rw [hadded]; simp
      · simpa using hrest
    · obtain ⟨added, framed, hadded, hframed, hrest⟩ := ih _ _
      refine ⟨c :: added, framed, ?_, hframed, .kept c ?_⟩
      · rw [hadded]; simp
      · simpa using hrest

namespace Expands

variable {rules : List Rule} {suffix : String} {i : Nat} {classes out : List ClassDecl}
  {framed : List FramedClass}

/-- The names that come out are those that went in and those of the record types. -/
theorem names_perm (h : Expands rules suffix i classes out framed) :
    (out.map (·.name)).Perm (classes.map (·.name) ++ framed.map (·.record.name)) := by
  induction h with
  | nil => exact .nil
  | kept c _ ih => exact ih.cons _
  | @framed i classes out framed c t ht _ ih =>
    rw [List.map_cons, List.map_cons, List.map_cons, List.map_cons, ht.host_name]
    exact ((ih.cons _).trans List.perm_middle.symm).cons _

/-- Framed classes come in the order of the module. -/
theorem hosts_sublist (h : Expands rules suffix i classes out framed) :
    (framed.map (·.host.name)).Sublist (classes.map (·.name)) := by
  induction h with
  | nil => exact .slnil
  | kept c _ ih => exact ih.cons _
  | framed ht _ ih =>
    rw [List.map_cons, List.map_cons, ht.host_name]
    exact ih.cons_cons _

/-- A record type is named after its host. -/
theorem record_name (h : Expands rules suffix i classes out framed) {t : FramedClass}
    (ht : t ∈ framed) : t.record.name = t.host.name ++ suffix := by
  induction h with
  | nil => cases ht
  | kept c _ ih => exact ih ht
  | framed hu _ ih =>
    rcases List.mem_cons.mp ht with rfl | ht
    · rw [hu.record_name, hu.host_name]
    · exact ih ht

/-- Record types never take each other's names. -/
theorem records_nodup (h : Expands rules suffix i classes out framed)
    (hclasses : (classes.map (·.name)).Nodup) : (framed.map (·.record.name)).Nodup := by
  have hnames : framed.map (·.record.name) = (framed.map (·.host.name)).map (· ++ suffix) := by
    rw [List.map_map]
    exact List.map_congr_left fun t ht => h.record_name ht
  have happend : Function.Injective fun name : String => name ++ suffix := by
    intro a b hab
    simpa using hab
  rw [hnames]
  exact (hclasses.sublist h.hosts_sublist).map happend

/-- The names that come out differ just where no class bears the name of a record type. -/
theorem names_nodup_iff (h : Expands rules suffix i classes out framed)
    (hclasses : (classes.map (·.name)).Nodup) :
    (out.map (·.name)).Nodup ↔ ∀ t ∈ framed, ∀ c ∈ classes, c.name ≠ t.record.name := by
  rw [h.names_perm.nodup_iff, List.nodup_append]
  constructor
  · rintro ⟨-, -, hne⟩ t ht c hc
    exact hne _ (List.mem_map_of_mem hc) _ (List.mem_map_of_mem ht)
  · intro hne
    refine ⟨hclasses, h.records_nodup hclasses, fun a ha b hb => ?_⟩
    obtain ⟨c, hc, rfl⟩ := List.mem_map.mp ha
    obtain ⟨t, ht, rfl⟩ := List.mem_map.mp hb
    exact hne t ht c hc

/-- Around a framed class: what comes before it is what the classes before it become. -/
theorem split_of_mem (h : Expands rules suffix i classes out framed) {t : FramedClass}
    (ht : t ∈ framed) :
    ∃ before c after front back earlier later,
      classes = before ++ c :: after ∧ out = front ++ t.host :: t.record :: back ∧
      framed = earlier ++ t :: later ∧ FramedAt rules suffix (i + front.length) c t ∧
      Expands rules suffix i before front earlier := by
  induction h with
  | nil => cases ht
  | kept d hrest ih =>
    obtain ⟨before, c, after, front, back, earlier, later, rfl, rfl, rfl, hat, hfront⟩ := ih ht
    refine ⟨d :: before, c, after, d :: front, back, earlier, later, rfl, rfl, rfl, ?_,
      .kept d hfront⟩
    rw [List.length_cons]
    convert hat using 1
    omega
  | @framed i classes out framed d u hu hrest ih =>
    rcases List.mem_cons.mp ht with rfl | ht
    · exact ⟨[], d, classes, [], out, [], framed, rfl, rfl, rfl, hu, .nil⟩
    · obtain ⟨before, c, after, front, back, earlier, later, rfl, rfl, rfl, hat, hfront⟩ := ih ht
      refine ⟨d :: before, c, after, u.host :: u.record :: front, back, u :: earlier, later, rfl,
        rfl, rfl, ?_, .framed hu hfront⟩
      rw [List.length_cons, List.length_cons]
      convert hat using 1
      omega

/-- The search for a record type passes everything before it, and ends at the latest there. -/
theorem findIdx?_eq_iff {host record : ClassDecl} (front back : List ClassDecl) :
    (front ++ host :: record :: back).findIdx? (·.name == record.name) = some (front.length + 1) ↔
      ∀ d ∈ front ++ [host], d.name ≠ record.name := by
  have hlength : front.length + 1 = (front ++ [host]).length := by simp
  have hassoc : front ++ host :: record :: back = (front ++ [host]) ++ record :: back := by simp
  rw [hlength, hassoc, List.findIdx?_eq_some_iff_getElem]
  simp only [beq_iff_eq]
  constructor
  · rintro ⟨hlt, -, hbefore⟩ d hd
    obtain ⟨j, hj, rfl⟩ := List.mem_iff_getElem.mp hd
    simpa only [List.getElem_append_left hj] using hbefore j hj
  · intro hne
    refine ⟨by simp, by simp, fun j hj => ?_⟩
    rw [List.getElem_append_left hj]
    exact hne _ (List.getElem_mem hj)

/-- A class before the record type bears its name just where one of the classes that the module
had up to there does: the other record types have other names. -/
theorem forall_name_ne_iff {before front : List ClassDecl} {earlier later : List FramedClass}
    {c : ClassDecl} {t : FramedClass} (h : Expands rules suffix i before front earlier)
    (hhost : t.host.name = c.name)
    (hnodup : ((earlier ++ t :: later).map (·.record.name)).Nodup) :
    (∀ d ∈ front ++ [t.host], d.name ≠ t.record.name) ↔
      ∀ d ∈ before ++ [c], d.name ≠ t.record.name := by
  have hother : t.record.name ∉ earlier.map (·.record.name) := by
    rw [List.map_append, List.map_cons, List.nodup_append] at hnodup
    exact fun hmem => hnodup.2.2 _ hmem _ List.mem_cons_self rfl
  have hmem : t.record.name ∈ front.map (·.name) ↔ t.record.name ∈ before.map (·.name) := by
    rw [h.names_perm.mem_iff, List.mem_append, or_iff_left hother]
  have hfree : (∀ d ∈ front, d.name ≠ t.record.name) ↔ ∀ d ∈ before, d.name ≠ t.record.name := by
    simpa using not_congr hmem
  simp only [List.forall_mem_append, List.forall_mem_singleton, hhost, hfree]

end Expands

/-! ## The record type of a class -/

/-- A class of a module is framed, and what comes of it: host and record type stand side by side,
and a search for the name of the record type comes to it just where no class of the module, up to
the framed one, bears that name. Programs then load the class with its own record type. -/
structure Placed (p : Pipeline) (m out : Module) (before : List ClassDecl) (c : ClassDecl)
    (i : Nat) (t : FramedClass) : Prop where
  source : ∃ after, m.classes = before ++ c :: after
  framed : FramedAt p.rules p.recordSuffix i c t
  host : out.classes[i]? = some t.host
  record : out.classes[i + 1]? = some t.record
  found : ∀ field, t.host.field? recordField = some field →
    (out.classes.findIdx? (·.name == field.type.name) = some (i + 1) ↔
      ∀ d ∈ before ++ [c], d.name ≠ t.record.name)
  loaded : (∀ d ∈ before ++ [c], d.name ≠ t.record.name) →
    ∀ field, t.host.field? recordField = some field →
      out.class? field.type.name = some t.record ∧
        Dynamic.LoadedClass.ofModule out t.host =
          .ok { decl := t.host, record := some t.record
                layout := Dynamic.LoadedClass.layoutOf (some t.record) }

/-- What a search comes to is found. -/
theorem class?_of_findIdx? {m : Module} {name : String} {i : Nat} {c : ClassDecl}
    (hi : m.classes.findIdx? (·.name == name) = some i) (hc : m.classes[i]? = some c) :
    m.class? name = some c := by
  obtain ⟨hlt, hfound, hbefore⟩ := List.findIdx?_eq_some_iff_getElem.mp hi
  obtain ⟨_, rfl⟩ := List.getElem?_eq_some_iff.mp hc
  exact List.find?_eq_some_iff_getElem.mpr ⟨hfound, i, hlt, rfl, by simpa using hbefore⟩

/-- Every framed class has its place in the module that comes out. -/
theorem placed_of_mem {p : Pipeline} {m out : Module} {framed : List FramedClass}
    (h : Expands p.rules p.recordSuffix 0 m.classes out.classes framed)
    (hm : (m.classes.map (·.name)).Nodup) {t : FramedClass} (ht : t ∈ framed) :
    ∃ before c i, Placed p m out before c i t := by
  have hnodup := h.records_nodup hm
  obtain ⟨before, c, after, front, back, earlier, later, hclasses, hout, rfl, hat, hfront⟩ :=
    h.split_of_mem ht
  rw [Nat.zero_add] at hat
  have hrecord : out.classes[front.length + 1]? = some t.record := by simp [hout]
  have htype (field : Field) (hfield : t.host.field? recordField = some field) :
      field.type.name = t.record.name := by
    rw [hat.chain_type field hfield, hat.record_name]
    rfl
  have hfound : out.classes.findIdx? (·.name == t.record.name) = some (front.length + 1) ↔
      ∀ d ∈ before ++ [c], d.name ≠ t.record.name := by
    rw [hout, Expands.findIdx?_eq_iff, hfront.forall_name_ne_iff hat.host_name hnodup]
  refine ⟨before, c, front.length, ?_⟩
  exact
    { source := ⟨after, hclasses⟩
      framed := hat
      host := by simp [hout]
      record := hrecord
      found := fun field hfield => by rw [htype field hfield]; exact hfound
      loaded := fun hfree field hfield => by
        have hclass := class?_of_findIdx? (hfound.mpr hfree) hrecord
        rw [← htype field hfield] at hclass
        exact ⟨hclass, by simp only [Dynamic.LoadedClass.ofModule, hfield, hclass]⟩ }

namespace Pipeline

/-- **Names of a framed module.** Whatever the rules of a pipeline and its suffix, the classes of a
module with distinct names are framed into classes with distinct names just where no class bears
the name of a record type. Record types never share a name, and each is found as the one of its
class just where no class up to there bears its name. -/
theorem names_of_framed (p : Pipeline) (facts : Facts) (m : Module)
    (hm : (m.classes.map (·.name)).Nodup) :
    let out := (p.transformWith facts m).1
    ((out.module.classes.map (·.name)).Nodup ↔
      ∀ t ∈ out.transformed, ∀ c ∈ m.classes, c.name ≠ t.host.name ++ p.recordSuffix) ∧
    (out.transformed.map (·.record.name)).Nodup ∧
    ∀ t ∈ out.transformed, ∃ before c i, Placed p m out.module before c i t := by
  obtain ⟨added, framed, hadded, hframed, hexpands⟩ :=
    expands_transformClasses p m facts { module := {}, transformed := [], summary := {} } m.classes
  rw [List.nil_append] at hadded hframed
  rw [← hadded, ← hframed] at hexpands
  refine ⟨?_, hexpands.records_nodup hm, fun t ht => placed_of_mem hexpands hm ht⟩
  refine (hexpands.names_nodup_iff hm).trans (forall₂_congr fun t ht => ?_)
  rw [hexpands.record_name ht]

/-- A framed class with one property, and a class of another name. -/
def boxes (other : String) : Module :=
  let size : Property :=
    { name := "size", type := .named "Int", mutable := true
      initializer := some (.literal (.int 1)) }
  ⟨[{ name := other }, { name := "Box", annotations := [framedMark], properties := [size] }]⟩

/-- The record type of a box beside a class of a name of its own. -/
theorem names_of_framed_boxes :
    ((boxes "Shelf").classes.map (·.name)).Nodup ∧
    ((standard.transform (boxes "Shelf")).1.transformed.map (·.record.name)) = ["BoxRecord"] ∧
    ((standard.transform (boxes "Shelf")).1.module.classes.map (·.name)).Nodup := by
  have hm : ((boxes "Shelf").classes.map (·.name)).Nodup := by decide
  have hrecords : ((standard.transform (boxes "Shelf")).1.transformed.map (·.record.name)) =
      ["BoxRecord"] := by
    rw [standard_eq]
    decide +kernel
  have hnames := names_of_framed standard (Facts.analyze (boxes "Shelf")) (boxes "Shelf") hm
  refine ⟨hm, hrecords, hnames.1.mpr ?_⟩
  rw [standard_eq]
  decide +kernel

/-- A class that has the name of the record type of another: two classes of that name come out, and
the box, which keeps its size in its record type, finds the class without fields instead. -/
theorem record_name_taken :
    ((boxes "BoxRecord").classes.map (·.name)).Nodup ∧
    let out := (standard.transform (boxes "BoxRecord")).1
    out.summary.errors = [] ∧
    ¬ (out.module.classes.map (·.name)).Nodup ∧
    (out.transformed.map fun t => t.record.fields.map (·.name)) = [["size"]] ∧
    (out.transformed.map fun t =>
      (out.module.class? t.record.name).map fun c => c.fields.map (·.name)) = [some []] := by
  rw [standard_eq]
  decide +kernel

end Pipeline

end VersionedObjects.Framing
