import Mathlib.Logic.Relation
import VersionedObjects.Proofs.Framing.RecordNames

/-!
# Framing class by class

A module that is framed without errors is framed class by class: each class either has nothing to
frame and stays as it is, or its host and its record type come in its place. The rules change a
class in a few elementary ways, one after the other, so that what each of these keeps is kept by
framing, whatever the class declares and however the rules are ordered.
-/

namespace VersionedObjects.Framing

open Declaration

/-! ## The changes of a host -/

/-- One change that a rule makes to the class it frames. -/
inductive HostEdit : ClassDecl → ClassDecl → Prop where
  /-- A property changes, except for its name and whether it is mutable. -/
  | property {c} (name : String) (f : Property → Property) (hname : ∀ p, (f p).name = p.name)
      (hmutable : ∀ p, (f p).mutable = p.mutable) :
      HostEdit c { c with properties := Rule.modifyProperty name f c.properties }
  | field {c} (field : Field) : HostEdit c { c with fields := c.fields ++ [field] }
  /-- Methods are added, all of the interface of framed classes and each of a new name. -/
  | methods {c} (methods : List Method)
      (himplements : ∀ m ∈ methods, m.implements = some framedMarker)
      (hnodup : (methods.map (·.name)).Nodup) (hnew : ∀ m ∈ methods, c.method? m.name = none) :
      HostEdit c { c with methods := c.methods ++ methods }
  | initializer {c} (block : List Stmt) :
      HostEdit c { c with initializers := block :: c.initializers }
  | marker {c} : HostEdit c { c with supertypes := c.supertypes ++ [.named framedMarker] }

/-- Changes one after the other. -/
abbrev HostEdits : ClassDecl → ClassDecl → Prop :=
  Relation.ReflTransGen HostEdit

/-- The methods of the class have different names and belong to the interface of framed classes. -/
def HasFramedMethods (c : ClassDecl) : Prop :=
  (∀ m ∈ c.methods, m.implements = some framedMarker) ∧ (c.methods.map (·.name)).Nodup

/-- An edit of the host keeps the methods of a framed class. -/
theorem HostEdit.hasFramedMethods {c d : ClassDecl} (h : HostEdit c d) (hc : HasFramedMethods c) :
    HasFramedMethods d := by
  cases h with
  | property | field | initializer | marker => exact hc
  | methods methods himplements hnodup hnew =>
    refine ⟨List.forall_mem_append.mpr ⟨hc.1, himplements⟩, ?_⟩
    rw [List.map_append, List.nodup_append]
    refine ⟨hc.2, hnodup, fun a ha b hb hab => ?_⟩
    subst hab
    obtain ⟨m, hm, rfl⟩ := List.mem_map.mp hb
    obtain ⟨old, hold, hname⟩ := List.mem_map.mp ha
    exact List.find?_eq_none.mp (hnew m hm) old hold (by simpa using hname)

/-- By induction on the changes. -/
theorem HostEdits.hasFramedMethods {c d : ClassDecl} (h : HostEdits c d)
    (hc : HasFramedMethods c) : HasFramedMethods d := by
  induction h with
  | refl => exact hc
  | tail _ hedit ih => exact hedit.hasFramedMethods ih

namespace Rule

/-- By induction on the properties whose initializers are taken. -/
theorem hostEdits_takeInitializers (d : Draft) (properties : List String) :
    HostEdits d.host (takeInitializers d properties).2.host := by
  induction properties generalizing d with
  | nil => exact .refl
  | cons name rest ih =>
    rw [takeInitializers]
    split
    · exact .refl
    · exact .head (.property name withoutInitializer (fun _ => rfl) (fun _ => rfl))
        (ih (Draft.modifyProperty d name withoutInitializer))

/-- By induction on the properties that are redirected. -/
theorem hostEdits_redirectEach (d : Draft) (properties : List String) :
    HostEdits d.host (redirectEach d properties).2.host := by
  induction properties generalizing d with
  | nil => exact .refl
  | cons name rest ih =>
    rw [redirectEach]
    split
    · exact .refl
    · exact .head (.property name (redirectProperty d.recordType) (fun _ => rfl) (fun _ => rfl))
        (ih (Draft.modifyProperty d name (redirectProperty d.recordType)))

/-- A rule changes the host in elementary ways, also where it fails. -/
theorem hostEdits_apply (d : Draft) (rule : Rule) : HostEdits d.host (rule.apply d).2.host := by
  cases rule with
  | synthesizeRecordType =>
    change HostEdits d.host (applySynthesizeRecordType d).2.host
    unfold applySynthesizeRecordType
    split
    · exact .refl
    split <;> exact .refl
  | installRecordField => exact .single (.field _)
  | installChainOperations =>
    refine .single (.methods _ (fun m hm => ?_) ?_ fun m hm => ?_)
    · have hm := List.mem_of_mem_filter hm
      rw [List.mem_cons, List.mem_singleton] at hm
      rcases hm with rfl | rfl <;> rfl
    · have hboth : [firstFrameRecord, prependFrameRecord].Nodup := by decide
      exact List.Nodup.sublist (List.filter_sublist.map _) hboth
    · simpa using (List.mem_filter.mp hm).2
  | moveInitializers =>
    have htaken := hostEdits_takeInitializers d d.framed
    change HostEdits d.host (applyMoveInitializers d).2.host
    unfold applyMoveInitializers
    dsimp only
    split
    · next hresult => rwa [hresult] at htaken
    · next hresult =>
      rw [hresult] at htaken
      exact htaken.tail (.initializer _)
  | redirectAccessors =>
    have hredirected := hostEdits_redirectEach d d.framed
    change HostEdits d.host (applyRedirectAccessors d).2.host
    unfold applyRedirectAccessors
    split
    · next hresult => rwa [hresult] at hredirected
    · next hresult => rwa [hresult] at hredirected
  | addFramedMarker => exact .single .marker

/-! ## The making of a record type -/

/-- A class is the record type that some draft asks for. -/
def Synthesized (record : ClassDecl) : Prop :=
  ∃ (d : Draft) (fields : List Field), recordFields d = .ok fields ∧
    record =
      { name := d.recordType.name
        supertypes := [.named d.baseRecord.name]
        fields
        constructors := [{ superCall := some [] }]
        methods := [createMethod d.recordType, assignMethod d]
        origin := .recordOf d.hostIndex }

/-- Taking the initializers out of the host leaves the record alone. -/
theorem record_takeInitializers (d : Draft) (properties : List String) :
    (takeInitializers d properties).2.record = d.record := by
  induction properties generalizing d with
  | nil => rfl
  | cons name rest ih =>
    rw [takeInitializers]
    split
    · rfl
    · exact ih _

/-- Redirecting the properties of the host leaves the record alone. -/
theorem record_redirectEach (d : Draft) (properties : List String) :
    (redirectEach d properties).2.record = d.record := by
  induction properties generalizing d with
  | nil => rfl
  | cons name rest ih =>
    rw [redirectEach]
    split
    · rfl
    · exact ih _

/-- Of the rules one makes record types; the others leave the record type as it is. -/
theorem synthesized_apply {d : Draft} (h : ∀ r, d.record = some r → Synthesized r) (rule : Rule) :
    ∀ r, (rule.apply d).2.record = some r → Synthesized r := by
  have hkeep {e : Draft} (he : e.record = d.record) : ∀ r, e.record = some r → Synthesized r :=
    he ▸ h
  cases rule with
  | synthesizeRecordType =>
    change ∀ r, (applySynthesizeRecordType d).2.record = some r → Synthesized r
    unfold applySynthesizeRecordType
    split
    · exact h
    split
    · exact h
    · next fields hfields =>
      intro r hr
      obtain rfl := Option.some.inj hr
      exact ⟨d, fields, hfields, rfl⟩
  | installRecordField => exact hkeep rfl
  | installChainOperations => exact hkeep rfl
  | moveInitializers =>
    have htaken := record_takeInitializers d d.framed
    refine hkeep ?_
    change (applyMoveInitializers d).2.record = d.record
    unfold applyMoveInitializers
    dsimp only
    split
    · next hresult => rwa [hresult] at htaken
    · next hresult => rwa [hresult] at htaken
  | redirectAccessors =>
    have hredirected := record_redirectEach d d.framed
    refine hkeep ?_
    change (applyRedirectAccessors d).2.record = d.record
    unfold applyRedirectAccessors
    split
    · next hresult => rwa [hresult] at hredirected
    · next hresult => rwa [hresult] at hredirected
  | addFramedMarker => exact hkeep rfl

end Rule

namespace Pipeline

/-- By induction on the rules, whatever they are. -/
theorem hostEdits_runRules {stats last : Association RuleStats} {d e : Draft} {rules : List Rule}
    (h : ∀ r, d.record = some r → Rule.Synthesized r)
    (hrun : runRules stats d rules = (.ok e, last)) :
    HostEdits d.host e.host ∧ ∀ r, e.record = some r → Rule.Synthesized r := by
  induction rules generalizing d stats with
  | nil =>
    cases hrun
    exact ⟨.refl, h⟩
  | cons rule rest ih =>
    cases happlies : rule.applies d with
    | true =>
      obtain ⟨_, next, _, happly, hrest⟩ := runRules_cons happlies hrun
      have hedits := Rule.hostEdits_apply d rule
      have hrecord := Rule.synthesized_apply h rule
      rw [happly] at hedits hrecord
      obtain ⟨hlater, hlast⟩ := ih hrecord hrest
      exact ⟨hedits.trans hlater, hlast⟩
    | false =>
      rw [runRules, happlies] at hrun
      exact ih h hrun

/-- A framed class becomes its host by elementary changes, and its record type is made anew. -/
theorem hostEdits_of_transformClass {p : Pipeline} {m : Module} {facts : ClassFacts} {i : Nat}
    {c : ClassDecl} {t : FramedClass} (h : (p.transformClass m facts i c).1 = .ok (some t)) :
    HostEdits c t.host ∧ Rule.Synthesized t.record := by
  unfold transformClass at h
  split at h
  · cases h
  · cases h
  · next d hd =>
    obtain ⟨-, -, ps, baseRecord, -, -, rfl⟩ := draft?_eq_some hd
    dsimp only at h
    split at h
    · cases h
    · next e hrun =>
      obtain ⟨hedits, hrecord⟩ :=
        hostEdits_runRules (fun _ hr => by cases hr) (Prod.ext hrun rfl)
      split at h
      · next record hsome =>
        cases h
        exact ⟨hedits, hrecord record hsome⟩
      · cases h

/-! ## The classes in order -/

/-- What comes of the classes of a module without errors: each class is replaced by a piece, and
the pieces are put together. By induction on the classes that are left, which find the pipeline
with other counts. -/
theorem forall₂_transformClasses {P : ClassDecl → List ClassDecl → Prop} {m : Module}
    {facts : Facts} {p : Pipeline} {out : Outcome} {classes : List ClassDecl}
    (hkept : ∀ c ∈ classes, ∀ stats i,
      (transformClass { p with stats } m ((facts.get? c.name).getD {}) i c).1 = .ok none →
        P c [c])
    (hframed : ∀ c ∈ classes, ∀ stats i t,
      (transformClass { p with stats } m ((facts.get? c.name).getD {}) i c).1 = .ok (some t) →
        P c [t.host, t.record])
    (hok : (transformClasses m facts p out classes).1.summary.errors = []) :
    ∃ pieces, (transformClasses m facts p out classes).1.module.classes =
        out.module.classes ++ pieces.flatten ∧
      List.Forall₂ P classes pieces := by
  induction classes generalizing p out with
  | nil => exact ⟨[], by simp [transformClasses], .nil⟩
  | cons c rest ih =>
    rw [List.forall_mem_cons] at hkept hframed
    obtain ⟨stats, hnext⟩ :=
      p.transformClass_snd m ((facts.get? c.name).getD {}) out.module.classes.length c
    unfold transformClasses at hok ⊢
    dsimp only at hok ⊢
    rw [hnext] at hok ⊢
    have hlater {next : Outcome}
        (h : (transformClasses m facts { p with stats } next rest).1.summary.errors = []) :=
      ih (p := { p with stats }) hkept.2 hframed.2 h
    split at hok
    · next t ht =>
      obtain ⟨pieces, hpieces, hrest⟩ := hlater hok
      refine ⟨[t.host, t.record] :: pieces, ?_, .cons (hframed.1 p.stats _ t ht) hrest⟩
      rw [hpieces]
      simp
    · next hnone =>
      obtain ⟨pieces, hpieces, hrest⟩ := hlater hok
      refine ⟨[c] :: pieces, ?_, .cons (hkept.1 p.stats _ hnone) hrest⟩
      rw [hpieces]
      simp
    · obtain ⟨more, hmore⟩ := errors_transformClasses m facts _ _ rest
      rw [hmore] at hok
      simp at hok

/-- A module that is framed without errors is put together from pieces, of which is known what is
known of every class as it stands and of every host with its record type. -/
theorem exists_pieces_of_transform {P : List ClassDecl → Prop} {m : Module} {p : Pipeline}
    (hkept : ∀ c ∈ m.classes, P [c])
    (hframed : ∀ c ∈ m.classes, ∀ stats i t, (transformClass { p with stats } m
      (((Facts.analyze m).get? c.name).getD {}) i c).1 = .ok (some t) → P [t.host, t.record])
    (hok : (p.transform m).1.summary.errors = []) :
    ∃ pieces : List (List ClassDecl), (p.transform m).1.module.classes = pieces.flatten ∧
      ∀ piece ∈ pieces, P piece := by
  obtain ⟨pieces, hpieces, hall⟩ := forall₂_transformClasses (P := fun _ piece => P piece)
    (fun c hc _ _ _ => hkept c hc) hframed hok
  refine ⟨pieces, hpieces, fun piece hpiece => ?_⟩
  obtain ⟨-, -, h⟩ := exists_mem_of_forall₂ hall.flip piece hpiece
  exact h

end Pipeline

end VersionedObjects.Framing
