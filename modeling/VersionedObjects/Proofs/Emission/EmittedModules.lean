import VersionedObjects.Grammar.Outcome
import VersionedObjects.Proofs.Declaration.Equality
import VersionedObjects.Proofs.Emission.UnambiguousClasses
import VersionedObjects.Proofs.Framing.ClassByClass
import VersionedObjects.Proofs.Grammar.WellNamed

/-!
# The members of emitted modules

A source that is parsed, framed and emitted has in each of its items members of different names
that are fit for members, just where the classes that come out of framing are unambiguous. Framing
checks names for this before they are put in snake case, and the names of framed properties only,
so that some sources are emitted all the same although their members clash.
-/

namespace VersionedObjects.Emission

open Declaration
open Framing (DistinctProperties FramesInto HostEdits)
open Framing.Pipeline (standard usual_standard)

/-! ## What is emitted of a source -/

/-- The class of a source, as it stands. -/
theorem propertiesOnly_of_sourced {c : ClassDecl} (hc : c.Sourced) (hnamed : c.WellNamed)
    (hnames : DistinctProperties c) : PropertiesOnly c where
  properties := hnames
  identifiers p hp := (hnamed.properties p hp).name
  fields := by simp [hc.fields]
  constructors := hc.constructors
  methods := by simp [Framing.HasFramedMethods, hc.methods]
  initializers _ := hc.initializers

/-- The host of a class that declares properties only. -/
theorem propertiesOnly_of_framesInto {c host record : ClassDecl} {recordType : TypeExpr}
    {ps : List Property} (hc : PropertiesOnly c) (hinto : FramesInto c recordType ps host record)
    (hedits : HostEdits c host) : PropertiesOnly host := by
  have hnames : host.properties.map (·.name) = c.properties.map (·.name) := by
    rw [hinto.host_properties, Framing.map_name_map (Framing.hostProperty_name recordType ps)]
  refine
    { properties := ?_
      identifiers := fun p hp => ?_
      fields := ?_
      constructors := hinto.host_constructors.trans hc.constructors
      methods := hedits.hasFramedMethods hc.methods
      initializers := fun hnone => ?_ }
  · rw [DistinctProperties, hnames]
    exact hc.properties
  · obtain ⟨q, hq, hname⟩ := List.mem_map.mp (hnames ▸ List.mem_map_of_mem hp)
    exact hname ▸ hc.identifiers q hq
  · rw [hinto.host_fields, List.forall_mem_append, List.forall_mem_singleton]
    exact ⟨hc.fields, rfl⟩
  · rw [ClassDecl.field?, hinto.host_fields, List.find?_append] at hnone
    simp at hnone

/-- The record type of a class. -/
theorem recordOf_of_framesInto {c host record : ClassDecl} {recordType : TypeExpr}
    {ps : List Property} (hinto : FramesInto c recordType ps host record)
    (hmade : Framing.Rule.Synthesized record) : RecordOf host record := by
  have hslots : record.fields.map (·.name) = ps.map (·.name) := by
    rw [hinto.record_fields, List.map_map]
    rfl
  obtain ⟨d, fields, -, hrecord⟩ := hmade
  refine ⟨hinto.record_origin, hslots ▸ hinto.framable.nodup, ?_, ?_⟩
  · rw [hslots, hinto.host_properties,
      Framing.map_name_map (Framing.hostProperty_name recordType ps)]
    exact List.map_subset _ hinto.framable.mem
  · have hboth : ["create", "assign"].Nodup := by decide
    rw [hrecord]
    exact hboth

/-- What takes the place of one class in a framed module: the class itself, or its host and its
record type. -/
inductive Piece : List ClassDecl → Prop where
  | kept {c : ClassDecl} : c.origin = .declared → PropertiesOnly c → Piece [c]
  | framed {host record : ClassDecl} : host.origin = .declared → PropertiesOnly host →
      RecordOf host record → Piece [host, record]

/-- A class of a piece was declared, or is the record of a declared class in the same piece. -/
theorem Piece.of_mem {piece : List ClassDecl} (h : Piece piece) {c : ClassDecl} (hc : c ∈ piece) :
    (c.origin = .declared ∧ PropertiesOnly c) ∨
      ∃ host ∈ piece, host.origin = .declared ∧ PropertiesOnly host ∧ RecordOf host c := by
  cases h with
  | kept horigin honly =>
    obtain rfl := List.mem_singleton.mp hc
    exact .inl ⟨horigin, honly⟩
  | framed horigin honly hrecord =>
    rcases List.mem_cons.mp hc with rfl | hc
    · exact .inl ⟨horigin, honly⟩
    · obtain rfl := List.mem_singleton.mp hc
      exact .inr ⟨_, List.mem_cons_self, horigin, honly, hrecord⟩

/-- The classes of a source, framed without errors. -/
theorem pieces_of_transform {source : String} {m : Module}
    (hparse : Grammar.parseModule source = .ok m) (hnames : ∀ c ∈ m.classes, DistinctProperties c)
    (hok : (standard.transform m).1.summary.errors = []) :
    ∃ pieces : List (List ClassDecl), (standard.transform m).1.module.classes = pieces.flatten ∧
      ∀ piece ∈ pieces, Piece piece := by
  have hsourced := Grammar.sourced_of_parseModule hparse
  have honly : ∀ c ∈ m.classes, PropertiesOnly c := fun c hc =>
    propertiesOnly_of_sourced (hsourced c hc) (Grammar.wellNamed_of_parseModule hparse c hc)
      (hnames c hc)
  have hframed : ∀ c ∈ m.classes, ∀ stats i t,
      (Framing.Pipeline.transformClass { standard with stats } m
        (((Framing.Facts.analyze m).get? c.name).getD {}) i c).1 = .ok (some t) →
          Piece [t.host, t.record] := by
    intro c hc stats i t ht
    have husual : Framing.Pipeline.Usual { standard with stats } :=
      ⟨usual_standard.rules, usual_standard.suffix⟩
    obtain ⟨ps, hinto⟩ := Framing.Pipeline.transformClass_eq_some husual (hnames c hc) ht
    obtain ⟨hedits, hmade⟩ := Framing.Pipeline.hostEdits_of_transformClass ht
    exact .framed (hinto.host_origin.trans (hsourced c hc).origin)
      (propertiesOnly_of_framesInto (honly c hc) hinto hedits) (recordOf_of_framesInto hinto hmade)
  exact Framing.Pipeline.exists_pieces_of_transform
    (fun c hc => .kept (hsourced c hc).origin (honly c hc)) hframed hok

/-- What is emitted of a module are the items of its classes, after a first line and imports. -/
theorem emit_eq_ok_iff {config : EmitConfig} {m : Module} {origin text : String} :
    emit config m origin = .ok text ↔ ∃ items, moduleItems config m = .ok items ∧
      text = "// Generated by framec from " ++ origin ++ ". Do not edit.\n" ++ imports config m ++
        String.join (items.map ("\n" ++ ·.text)) := by
  simp only [emit, bind_eq_ok_iff]
  exact exists_congr fun items => and_congr_right fun _ =>
    ⟨fun h => (Except.ok.inj h).symm, fun h => congrArg Except.ok h.symm⟩

/-- Every class of an emitted module has its items in the output. -/
theorem exists_classItems {config : EmitConfig} {m : Module} {items : List Item}
    (h : moduleItems config m = .ok items) :
    ∀ c ∈ m.classes, ∃ own, classItems config m c = .ok own ∧ own ⊆ items := by
  obtain ⟨all, hall, h⟩ := bind_eq_ok_iff.mp h
  cases h
  intro c hc
  obtain ⟨own, hmem, hown⟩ := exists_mem_of_forall₂ (mapM_eq_ok_iff.mp hall) c hc
  exact ⟨own, hown, fun item hitem => List.mem_flatten.mpr ⟨own, hmem, hitem⟩⟩

/-- Every item of the output is one of some class. -/
theorem exists_class_of_mem_moduleItems {config : EmitConfig} {m : Module} {items : List Item}
    (h : moduleItems config m = .ok items) :
    ∀ item ∈ items, ∃ c ∈ m.classes, ∃ own, classItems config m c = .ok own ∧ item ∈ own := by
  obtain ⟨all, hall, h⟩ := bind_eq_ok_iff.mp h
  cases h
  intro item hitem
  obtain ⟨own, hmem, hitem⟩ := List.mem_flatten.mp hitem
  obtain ⟨c, hc, hown⟩ := exists_mem_of_forall₂ (mapM_eq_ok_iff.mp hall).flip own hmem
  exact ⟨c, hc, own, hown, hitem⟩

/-- **Members of generated code.** Where a source whose classes have properties of different names
is parsed, framed and emitted without errors, what is emitted are the items of its classes. In
every item, be it a structure or a block of functions, the members have different names that are
fit for members, just where each class that comes out of framing is unambiguous; record types
need no condition of their own. -/
theorem emitted_members_iff {source : String} {m : Module}
    (hparse : Grammar.parseModule source = .ok m) (hnames : ∀ c ∈ m.classes, DistinctProperties c)
    (hok : (standard.transform m).1.summary.errors = []) {config : EmitConfig}
    {origin text : String}
    (hemit : emit config (standard.transform m).1.module origin = .ok text) :
    let out := (standard.transform m).1.module
    ∃ items, moduleItems config out = .ok items ∧
      text = "// Generated by framec from " ++ origin ++ ". Do not edit.\n" ++ imports config out ++
        String.join (items.map ("\n" ++ ·.text)) ∧
      ((∀ item ∈ items, ClearNames item.memberNames) ↔
        ∀ c ∈ out.classes, c.origin = .declared → Unambiguous out c) := by
  intro out
  obtain ⟨items, hitems, htext⟩ := emit_eq_ok_iff.mp hemit
  obtain ⟨pieces, hpieces, hall⟩ := pieces_of_transform hparse hnames hok
  refine ⟨items, hitems, htext, ?_⟩
  have hsorted : ∀ c ∈ out.classes, (c.origin = .declared ∧ PropertiesOnly c) ∨
      ∃ host ∈ out.classes, host.origin = .declared ∧ PropertiesOnly host ∧ RecordOf host c := by
    intro c hc
    obtain ⟨piece, hpiece, hc⟩ := List.mem_flatten.mp (hpieces ▸ hc)
    refine (hall piece hpiece).of_mem hc |>.imp_right fun ⟨host, hhost, h⟩ => ⟨host, ?_, h⟩
    exact hpieces ▸ List.mem_flatten.mpr ⟨piece, hpiece, hhost⟩
  constructor
  · intro h c hc horigin
    obtain ⟨own, hown, hsub⟩ := exists_classItems hitems c hc
    rcases hsorted c hc with ⟨-, honly⟩ | ⟨host, -, -, -, hrecord⟩
    · exact (forall_clearNames_iff_unambiguous honly horigin hown).mp fun item hitem =>
        h item (hsub hitem)
    · exact absurd horigin hrecord.origin
  · intro h item hitem
    obtain ⟨c, hc, own, hown, hitem⟩ := exists_class_of_mem_moduleItems hitems item hitem
    rcases hsorted c hc with ⟨horigin, honly⟩ | ⟨host, hhost, horigin, honly, hrecord⟩
    · exact (forall_clearNames_iff_unambiguous honly horigin hown).mpr (h c hc horigin) item hitem
    · exact hrecord.forall_clearNames honly (h host hhost horigin) hown item hitem

/-- A crate of a lot: names in camel case, words of Rust and a superclass of the module. -/
def lotText : String :=
  "class Lot \x7b val id: Int = 1 \x7d\n" ++
  "@Framed class Crate : Lot \x7b\n" ++
  "  var netWeight: Double = 0.5 var type: String val self: Int = 2\n" ++
  "\x7d"

/-- What the text declares. -/
def lotModule : Module where
  classes := [
    { name := "Lot"
      properties := [
        { name := "id", type := .named "Int", mutable := false
          initializer := some (.literal (.int 1)) }] },
    { name := "Crate"
      annotations := ["Framed"]
      supertypes := [.named "Lot"]
      properties := [
        { name := "netWeight", type := .named "Double", mutable := true
          initializer := some (.literal (.float (.ofRatio false 1 2))) },
        { name := "type", type := .named "String", mutable := true },
        { name := "self", type := .named "Int", mutable := false
          initializer := some (.literal (.int 2)) }] }]

/-- A class with a superclass, whose properties are named in camel case and after words of Rust, is
emitted without clashes. -/
theorem emitted_members_iff_lot :
    let out := (standard.transform lotModule).1.module
    Grammar.parseModule lotText = .ok lotModule ∧
    (∀ c ∈ lotModule.classes, DistinctProperties c) ∧
    (standard.transform lotModule).1.summary.errors = [] ∧
    (∃ text, emit {} out "lot.frames" = .ok text) ∧
    ∃ items, moduleItems {} out = .ok items ∧ ∀ item ∈ items, ClearNames item.memberNames := by
  intro out
  have hparse : Grammar.parseModule lotText = .ok lotModule := by decide +kernel
  have hnames : ∀ c ∈ lotModule.classes, DistinctProperties c := by
    unfold DistinctProperties
    decide +kernel
  have hok : (standard.transform lotModule).1.summary.errors = [] := by
    rw [Framing.Pipeline.standard_eq]
    decide +kernel
  have hemit : (emit {} (standard.transform lotModule).1.module "lot.frames").isOk = true := by
    rw [Framing.Pipeline.standard_eq]
    decide +kernel
  have hclasses : ∀ c ∈ out.classes, c.origin = .declared → Unambiguous out c := by
    change ∀ c ∈ (standard.transform lotModule).1.module.classes, c.origin = .declared →
      Unambiguous (standard.transform lotModule).1.module c
    rw [Framing.Pipeline.standard_eq]
    decide +kernel
  cases htext : emit {} (standard.transform lotModule).1.module "lot.frames" with
  | error e => rw [htext] at hemit; cases hemit
  | ok text =>
    obtain ⟨items, hitems, -, hclear⟩ := emitted_members_iff hparse hnames hok htext
    exact ⟨hparse, hnames, hok, ⟨text, rfl⟩, items, hitems, hclear.mpr hclasses⟩

/-- A framed class whose property is named like a constructor, but for the case. -/
def newInText : String :=
  "@Framed class Box \x7b var newIn: Int = 1 \x7d"

/-- What the text declares. -/
def newInModule : Module where
  classes := [
    { name := "Box"
      annotations := ["Framed"]
      properties := [
        { name := "newIn", type := .named "Int", mutable := true
          initializer := some (.literal (.int 1)) }] }]

/-- Framing admits a property named `newIn`, as only `new_in` is reserved; the class is emitted with
two functions of the name `new_in`. -/
theorem emitted_constructor_twice :
    let out := (standard.transform newInModule).1.module
    Grammar.parseModule newInText = .ok newInModule ∧
    (∀ c ∈ newInModule.classes, DistinctProperties c) ∧
    (standard.transform newInModule).1.summary.errors = [] ∧
    (emit {} out "box.frames").isOk = true ∧
    (moduleItems {} out).map (·.map (·.memberNames)) = .ok [
      ["frame_record"], ["new", "new_in", "new_in", "set_new_in"], ["fmt"],
      ["first_frame_record", "prepend_frame_record"], ["default"],
      ["new_in"], ["create", "assign"]] ∧
    ¬ ["new", "new_in", "new_in", "set_new_in"].Nodup := by
  rw [Framing.Pipeline.standard_eq]
  unfold DistinctProperties
  decide +kernel

end VersionedObjects.Emission
