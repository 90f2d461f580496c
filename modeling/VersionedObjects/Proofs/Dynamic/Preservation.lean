import VersionedObjects.Proofs.Declaration.Equality
import VersionedObjects.Proofs.Dynamic.Instances
import VersionedObjects.Proofs.Dynamic.Simulation

/-!
# Framing preserves meaning

A text in declaration syntax and the same text without the marks that ask for framing are loaded
into fresh runtimes. Instances of the same classes, made inside a writable frame or before it was
opened, then give the same replies to reads and writes inside the frame.
-/

namespace VersionedObjects.Dynamic

open Declaration Framing
open Store (FrameId FrameOptions ManagerId ObjectId World)

/-! ## Loading -/

/-- The runtime has the manager, which has no classes yet, and no instances. -/
structure Runtime.Fresh (r : Runtime) (m : ManagerId) : Prop where
  known : m < r.tables.length
  table : r.table m = []
  instances : r.instances = []

/-- The classes of a manager are those that were set. -/
theorem table_setTable {r : Runtime} {m : ManagerId} (h : m < r.tables.length)
    (table : ClassTable) : (r.setTable m table).table m = table := by
  simp [Runtime.setTable, Runtime.table, h]

/-- The empty class has itself as its counterpart. -/
theorem counterpart_default (recordType : TypeExpr) :
    Counterpart default default recordType [] where
  layout := rfl
  isFramed _ := rfl
  properties := rfl
  superclass := rfl
  constructors := rfl
  hidden := nofun
  initializers := rfl
  framable := ⟨nofun, List.nodup_nil, nofun⟩
  plain_sourced := ⟨rfl, nofun⟩
  plain_distinct := List.nodup_nil
  plain_constant := nofun
  plain_layout := rfl
  plain_record := rfl

/-- What is asked of a module: that names tell its classes and their properties apart, from each
other and from record types, that initializers are constants, and that no class inherits from
itself. -/
structure Orderly (module : Module) : Prop where
  names : (module.classes.map (·.name)).Nodup
  properties : ∀ c ∈ module.classes, DistinctProperties c
  constants : ∀ c ∈ module.classes, ∀ p ∈ c.properties, ∀ e ∈ p.initializer, isConstant e = true
  acyclic : module.Acyclic
  records : ∀ t ∈ (Pipeline.standard.transform module).1.transformed,
    ∀ c ∈ module.classes, c.name ≠ t.record.name

section

variable {module : Module} {m plainManager : ManagerId} {r₀ r s₀ s : Runtime}
  {source plainSource : String} {summary plainSummary : Summary}

/-- The loaded tables have counterparts of all classes. -/
theorem counterparts_of_loadSource (hmodule : Orderly module)
    (hparse : Grammar.parseModule source = .ok module)
    (hplainParse : Grammar.parseModule plainSource = .ok (unmarkedModule module))
    (hr₀ : r₀.Fresh m) (hs₀ : s₀.Fresh plainManager)
    (hload : r₀.loadSource m source = (.ok summary, r))
    (hplainLoad : s₀.loadSource plainManager plainSource = (.ok plainSummary, s)) :
    s.table plainManager = plainTable module.classes ∧
      (r.table m).Counterparts (plainTable module.classes) := by
  obtain ⟨herrors, rfl⟩ := loadSource_ok hparse hload
  obtain ⟨-, rfl⟩ := loadSource_ok hplainParse hplainLoad
  have hsourced := Grammar.sourced_of_parseModule hparse
  have hframes := Pipeline.frames_transform hmodule.properties herrors
  have hplain (m : Module) : (ClassTable.load [] m (module.classes.map unmarked)).2 =
      plainTable module.classes :=
    (load_unmarked hsourced (by simpa [Association.keys] using hmodule.names)).trans
      (List.nil_append _)
  rw [table_setTable hr₀.known, table_setTable hs₀.known, hr₀.table, hs₀.table,
    Pipeline.transform_unmarkedModule]
  refine ⟨hplain _, ?_⟩
  rw [← hplain (unmarkedModule module)]
  refine load_counterparts hframes (fun c hc => ?_) (fun t ht => ?_)
    ⟨rfl, fun name c hname => by cases hname⟩
  · exact ⟨hsourced c hc, hmodule.properties c hc, hmodule.constants c hc⟩
  · exact hframes.class?_record hmodule.names hmodule.records ht

/-- Loading changes no instance and nothing in the store. -/
theorem keeps_of_loadSource (hparse : Grammar.parseModule source = .ok module)
    (hload : r₀.loadSource m source = (.ok summary, r)) :
    r.instances = r₀.instances ∧ r.world = r₀.world := by
  obtain ⟨-, rfl⟩ := loadSource_ok hparse hload
  exact ⟨rfl, rfl⟩

/-- Loading leaves two runtimes together that have no instances yet. -/
theorem together_of_loadSource (hmodule : Orderly module)
    (hparse : Grammar.parseModule source = .ok module)
    (hplainParse : Grammar.parseModule plainSource = .ok (unmarkedModule module))
    (hr₀ : r₀.Fresh m) (hs₀ : s₀.Fresh plainManager)
    (hload : r₀.loadSource m source = (.ok summary, r))
    (hplainLoad : s₀.loadSource plainManager plainSource = (.ok plainSummary, s))
    (there : World Slots → Prop) (hthere : there r₀.world)
    (holds : World Slots → ObjectId → Slots → Prop) :
    Together m plainManager there holds r s ∧ (r.table m).Represents module := by
  obtain ⟨hplain, htables⟩ :=
    counterparts_of_loadSource hmodule hparse hplainParse hr₀ hs₀ hload hplainLoad
  obtain ⟨hr, hworld⟩ := keeps_of_loadSource hparse hload
  obtain ⟨hs, -⟩ := keeps_of_loadSource hplainParse hplainLoad
  rw [hr₀.instances] at hr
  rw [hs₀.instances] at hs
  have hinst (i : InstanceId) : r.inst i = default := by
    rw [Runtime.inst, hr]
    rfl
  have hplainInst (i : InstanceId) : s.inst i = default := by
    rw [Runtime.inst, hs]
    rfl
  let role : Role :=
    { cls := default, plain := default, recordType := default, framed := [], object := none,
      base := none }
  refine ⟨⟨hworld ▸ hthere, hplain ▸ htables, by rw [hr, hs], fun _ => role, ?_, ?_⟩,
    represents_of_counterparts htables⟩
  · exact ⟨fun _ => counterpart_default default, fun _ => rfl,
      fun _ _ _ hobject => by cases hobject⟩
  · refine ⟨fun i => ?_, fun i => ?_, fun i => ?_, fun i => ?_, fun i => ?_, fun i => ?_,
      fun i _ _ => ?_, fun i _ _ => ?_, fun _ _ hobject => by cases hobject⟩
    all_goals simp only [hinst, hplainInst]
    all_goals first | rfl | exact ⟨rfl, rfl⟩

end

/-! ## Making instances -/

section

variable {module : Module} {m plainManager : ManagerId} {there : World Slots → Prop}
  {holds : World Slots → ObjectId → Slots → Prop} {r s : Runtime}

/-- An instance of any class of the module is made on both sides. -/
theorem Together.makeInstance (h : Together m plainManager there holds r s)
    (site : World.Site m there holds) (htable : (r.table m).Represents module)
    (hacyclic : module.Acyclic) {c : ClassDecl} (hc : c ∈ module.classes) :
    ∃ i r' s', Dynamic.makeInstance m c.name [] r = .ok i r' ∧
      Dynamic.makeInstance plainManager c.name [] s = .ok i s' ∧
      Together m plainManager there holds r' s' ∧ r'.tables = r.tables := by
  obtain ⟨d, hd⟩ := htable.found c hc
  obtain ⟨e, recordType, ps, he, hcounterpart⟩ := h.tables.found c.name d hd
  have hlength : (r.table m).length = (s.table plainManager).length := by
    have hkeys := congrArg List.length h.tables.keys
    simpa [Association.keys] using hkeys
  obtain ⟨i, r', s', hr', hs', h', htables⟩ := h.construct site Calls.standard Calls.standard
    hcounterpart (endsWithin_of_acyclic htable hacyclic hd)
  have hget (r : Runtime) : (getThe Runtime : EvalM Runtime) r = .ok r r := rfl
  refine ⟨i, r', s', ?_, ?_, h', htables⟩
  · unfold Dynamic.makeInstance instantiate
    rw [bind_of_ok (hget r), bind_of_ok (hget r), hd]
    exact hr'
  · unfold Dynamic.makeInstance instantiate
    rw [bind_of_ok (hget s), bind_of_ok (hget s), he, ← hlength]
    exact hs'

/-- Makes instances of the classes of names. -/
def makeInstances (m : ManagerId) (names : List String) : EvalM (List InstanceId) :=
  names.mapM fun name => Dynamic.makeInstance m name []

/-- By induction on the names. -/
theorem Together.makeInstances (h : Together m plainManager there holds r s)
    (site : World.Site m there holds) (htable : (r.table m).Represents module)
    (hacyclic : module.Acyclic) {names : List String}
    (hnames : names ⊆ module.classes.map (·.name)) :
    ∃ ids r' s', Dynamic.makeInstances m names r = .ok ids r' ∧
      Dynamic.makeInstances plainManager names s = .ok ids s' ∧
      Together m plainManager there holds r' s' ∧ r'.tables = r.tables := by
  induction names generalizing r s with
  | nil => exact ⟨[], r, s, rfl, rfl, h, rfl⟩
  | cons name rest ih =>
    rw [List.cons_subset] at hnames
    obtain ⟨c, hc, rfl⟩ := List.mem_map.mp hnames.1
    obtain ⟨i, r₁, s₁, hr₁, hs₁, h₁, htables₁⟩ := h.makeInstance site htable hacyclic hc
    have htable₁ : (r₁.table m).Represents module := by
      rw [Runtime.table, htables₁]
      exact htable
    obtain ⟨ids, r', s', hr', hs', h', htables'⟩ := ih h₁ htable₁ hnames.2
    refine ⟨i :: ids, r', s', ?_, ?_, h', htables'.trans htables₁⟩
    · rw [Dynamic.makeInstances, List.mapM_cons, bind_of_ok hr₁]
      exact bind_of_ok hr'
    · rw [Dynamic.makeInstances, List.mapM_cons, bind_of_ok hs₁]
      exact bind_of_ok hs'

/-- What was made outside of frames is there when a frame is opened and entered. -/
theorem Together.enter {u v : World Slots} {f : FrameId} {options : FrameOptions}
    (h : Together m plainManager (·.Outside m) (World.Settled · m) r s)
    (hwritable : options.readOnly = false) (hquiet : options.onFirstWrite = none)
    (hopen : r.world.openFrame m options = (.ok f, v)) (henter : v.enterFrame f = (.ok (), u))
    (w : World Slots) :
    Together m plainManager (·.Inside m f) (fun w o slots => w.Shows m f o slots)
      { r with world := u } { s with world := w } := by
  obtain ⟨cast, hcast, hbeside⟩ := h.beside
  refine ⟨World.inside_of_openFrame hopen hwritable hquiet henter, h.tables, h.length, cast, hcast,
    { hbeside with slots := fun i o ho => ?_ }⟩
  obtain ⟨slots, hsettled, hvalues⟩ := hbeside.slots i o ho
  exact ⟨slots, hsettled.shows hopen henter, hvalues⟩

end

/-! ## Preservation -/

/-- Framing preserves the meaning of classes: whichever instances are made before a writable frame
is opened and inside it, reads and writes of their properties inside the frame have the same
replies as for the instances that are made of the classes without the marks that ask for framing,
to whatever depth accessors may call each other. -/
theorem replies_eq_of_unmarked {module : Module} (hmodule : Orderly module)
    {source plainSource : String} (hparse : Grammar.parseModule source = .ok module)
    (hplainParse : Grammar.parseModule plainSource = .ok (unmarkedModule module))
    {m plainManager : ManagerId} {r₀ r s₀ s : Runtime} (hr₀ : r₀.Fresh m)
    (hs₀ : s₀.Fresh plainManager) (houtside : r₀.world.Outside m)
    {summary plainSummary : Summary} (hload : r₀.loadSource m source = (.ok summary, r))
    (hplainLoad : s₀.loadSource plainManager plainSource = (.ok plainSummary, s))
    (before during : List String) (hbefore : before ⊆ module.classes.map (·.name))
    (hduring : during ⊆ module.classes.map (·.name)) :
    ∃ ids r₁ s₁, makeInstances m before r = .ok ids r₁ ∧
      makeInstances plainManager before s = .ok ids s₁ ∧
      ∀ options : FrameOptions, options.readOnly = false → options.onFirstWrite = none →
        ∀ f v u, r₁.world.openFrame m options = (.ok f, v) → v.enterFrame f = (.ok (), u) →
          ∀ plainWorld, ∃ ids' r₂ s₂,
            makeInstances m during { r₁ with world := u } = .ok ids' r₂ ∧
            makeInstances plainManager during { s₁ with world := plainWorld } = .ok ids' s₂ ∧
            ∀ depth requests, replies depth r₂ requests = replies depth s₂ requests ∧
              .stopped ∉ replies depth r₂ requests := by
  -- First outside of frames, where objects are committed at once, then inside the frame.
  obtain ⟨htogether, htable⟩ := together_of_loadSource hmodule hparse hplainParse hr₀ hs₀ hload
    hplainLoad (·.Outside m) houtside (World.Settled · m)
  obtain ⟨ids, r₁, s₁, hr₁, hs₁, h₁, htables₁⟩ :=
    htogether.makeInstances (World.site_outside m) htable hmodule.acyclic hbefore
  refine ⟨ids, r₁, s₁, hr₁, hs₁, fun options hwritable hquiet f v u hopen henter w => ?_⟩
  have htable₁ : (Runtime.table { r₁ with world := u } m).Represents module := by
    rw [Runtime.table, htables₁]
    exact htable
  obtain ⟨ids', r₂, s₂, hr₂, hs₂, h₂, -⟩ :=
    (h₁.enter hwritable hquiet hopen henter w).makeInstances (World.site_inside m f) htable₁
      hmodule.acyclic hduring
  obtain ⟨cast, hcast, hbeside⟩ := h₂.beside
  refine ⟨ids', r₂, s₂, hr₂, hs₂, fun depth requests => ?_⟩
  exact Mirrors.replies_eq hcast { hbeside with inside := h₂.there } depth requests

/-- A text with two framed classes, of which one inherits from the other and one has a setter. -/
def meterSource : String :=
  "@Framed class Meter \x7b
    var last: Int
    var reading: Int = 7 set(v) \x7b this.last = field field = v \x7d
  \x7d
  @Framed class Billed: Meter \x7b var unit: String = \"kWh\" \x7d"

/-- The same classes without marks. -/
def plainMeterSource : String :=
  "class Meter \x7b
    var last: Int
    var reading: Int = 7 set(v) \x7b this.last = field field = v \x7d
  \x7d
  class Billed: Meter \x7b var unit: String = \"kWh\" \x7d"

/-- What the text declares. -/
def meterModule : Module where
  classes := [
    { name := "Meter"
      annotations := ["Framed"]
      properties := [
        { name := "last", type := .named "Int", mutable := true },
        { name := "reading"
          type := .named "Int"
          mutable := true
          initializer := some (.literal (.int 7))
          setter := some
            { param := some "v"
              body := [
                .assign (.member .this "last") .backing,
                .assign .backing (.name "v")] } }] },
    { name := "Billed"
      annotations := ["Framed"]
      supertypes := [.named "Meter"]
      properties := [
        { name := "unit"
          type := .named "String"
          mutable := true
          initializer := some (.literal (.string "kWh")) }] }]

/-- The module of meters is orderly. -/
theorem orderly_meterModule : Orderly meterModule where
  names := by decide +kernel
  properties := by
    unfold DistinctProperties
    decide +kernel
  constants := by decide +kernel
  acyclic := Module.acyclic_of_rank (fun name => name.length) (by decide +kernel)
  records := by
    rw [Pipeline.standard_eq]
    decide +kernel

/-- A runtime with one manager, into which a text is loaded. -/
def runtimeOf (source : String) : Runtime :=
  ((({} : Runtime).addManager {}).loadSource 0 source).2

/-- The world of a runtime with one manager, inside the first frame. -/
def firstFrame : World Slots :=
  (((({} : Runtime).addManager {}).world.openFrame 0 {}).2.enterFrame 0).2

/-- A text that parses and is framed without errors is loaded with the classes of its framed module.
-/
theorem loadSource_runtimeOf {source : String} {module : Module}
    (hparse : Grammar.parseModule source = .ok module)
    (herrors : (Pipeline.standard.transform module).1.summary.errors = []) (names : List String)
    (hload : (ClassTable.load [] (Pipeline.standard.transform module).1.module
      (Pipeline.standard.transform module).1.module.classes).1 = .ok names) :
    ∃ summary, (({} : Runtime).addManager {}).loadSource 0 source =
      (.ok summary, runtimeOf source) := by
  rw [runtimeOf, loadSource_eq (r := ({} : Runtime).addManager {}) (m := 0) hparse herrors hload]
  exact ⟨_, rfl⟩

/-- A framed meter and a framed bill that inherits from it reply as plain ones do. -/
theorem replies_eq_of_unmarked_meter :
    ∃ ids r s,
      makeInstances 0 ["Billed", "Meter"] { runtimeOf meterSource with world := firstFrame } =
        .ok ids r ∧
      makeInstances 0 ["Billed", "Meter"] { runtimeOf plainMeterSource with world := firstFrame } =
        .ok ids s ∧
      ∀ depth requests, replies depth r requests = replies depth s requests ∧
        .stopped ∉ replies depth r requests := by
  have hparse : Grammar.parseModule meterSource = .ok meterModule := by decide +kernel
  have hplainParse : Grammar.parseModule plainMeterSource = .ok (unmarkedModule meterModule) := by
    decide +kernel
  have hfresh : (({} : Runtime).addManager {}).Fresh 0 := ⟨by decide, rfl, rfl⟩
  have houtside : (({} : Runtime).addManager {}).world.Outside 0 :=
    ⟨rfl, by decide, Store.Timely.nil _⟩
  obtain ⟨summary, hload⟩ := loadSource_runtimeOf hparse
    (by rw [Pipeline.standard_eq]; decide +kernel) ["Meter", "Billed"]
    (by rw [Pipeline.standard_eq]; decide +kernel)
  obtain ⟨plainSummary, hplainLoad⟩ := loadSource_runtimeOf hplainParse
    (by rw [Pipeline.standard_eq]; decide +kernel) ["Meter", "Billed"]
    (by rw [Pipeline.standard_eq]; decide +kernel)
  obtain ⟨ids, r, s, hr, hs, hframe⟩ := replies_eq_of_unmarked orderly_meterModule hparse
    hplainParse hfresh hfresh houtside hload hplainLoad [] ["Billed", "Meter"]
    (List.nil_subset _) (by decide)
  cases hr
  cases hs
  obtain ⟨-, hworld⟩ := keeps_of_loadSource hparse hload
  obtain ⟨ids', r', s', hr', hs', hreplies⟩ := hframe {} rfl rfl 0
    ((({} : Runtime).addManager {}).world.openFrame 0 {}).2 firstFrame (by rw [hworld]; rfl) rfl
    firstFrame
  exact ⟨ids', r', s', hr', hs', hreplies⟩

end VersionedObjects.Dynamic
