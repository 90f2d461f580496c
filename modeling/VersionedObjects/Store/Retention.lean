import VersionedObjects.Bisection
import VersionedObjects.Store.Chain

/-!
# Trimming chains

A record can go when no reader can reach it. It stays at or above the watermark, while its frame
is open, when a reader selects it, or when an open frame branched from it. The mask marks entries
of a list by their positions; main statement: in an ascending list it marks exactly the entries
that the rule retains.
-/

namespace VersionedObjects.Store

/-- The readers alive at one moment. -/
structure GcView where
  /-- The lowest open generation, or the next one of the clock. -/
  watermark : Generation
  readers : List Visibility
  /-- The open generations, ascending. -/
  opened : List Generation
  deriving DecidableEq, Inhabited, Repr

/-- A record's generation and the one it was branched from. -/
abbrev Entry := Generation × Option Generation

namespace GcView

/-! ## The rule -/

/-- The generation of the newest entry that a reader can see. -/
def selected? (reader : Visibility) (entries : List Entry) : Option Generation :=
  (entries.reverse.find? fun entry => reader.canSee entry.1).map (·.1)

/-- The generation is above all that is trimmed, or open. -/
def protects (view : GcView) (g : Generation) : Bool :=
  view.watermark ≤ g || view.opened.contains g

/-- An entry must survive among the entries of its chain. -/
def retains (view : GcView) (entries : List Entry) (entry : Entry) : Bool :=
  view.protects entry.1 ||
    view.readers.any (fun reader => selected? reader entries == some entry.1) ||
    entries.any (fun other => view.opened.contains other.1 && other.2 == some entry.1)

/-! ## The mask -/

/-- The position of the last entry with a property. -/
def lastPosition? (p : Entry → Bool) : List Entry → Option Nat
  | [] => none
  | entry :: rest =>
    match lastPosition? p rest with
    | some i => some (i + 1)
    | none => if p entry then some 0 else none

/-- The position of the entry that an open entry was branched from. -/
def basePosition? (view : GcView) (entries : List Entry) (entry : Entry) : Option Nat :=
  if view.opened.contains entry.1 then
    entry.2.bind (Bisection.position? (entries.map (·.1)))
  else none

/-- The positions of what readers select and of what open entries were branched from. -/
def reachedPositions (view : GcView) (entries : List Entry) : List Nat :=
  view.readers.filterMap (fun reader => lastPosition? (fun e => reader.canSee e.1) entries) ++
    entries.filterMap (view.basePosition? entries)

/-- Which entries of an ascending list must survive. -/
def retainMask (view : GcView) (entries : List Entry) : List Bool :=
  let reached := view.reachedPositions entries
  entries.mapIdx fun i entry => view.protects entry.1 || reached.contains i

/-- A last position is one of the list. -/
theorem lt_of_lastPosition? {p : Entry → Bool} {entries : List Entry} {i : Nat}
    (h : lastPosition? p entries = some i) : i < entries.length := by
  induction entries generalizing i with
  | nil => cases h
  | cons entry rest ih =>
    rw [lastPosition?] at h
    split at h
    · next j hj =>
      cases h
      exact Nat.succ_lt_succ (ih hj)
    · split at h <;> cases h
      exact Nat.zero_lt_succ _

/-- Looking from the end finds the entry at the last position. -/
theorem find?_reverse_eq (p : Entry → Bool) (entries : List Entry) :
    entries.reverse.find? p = (lastPosition? p entries).bind (entries[·]?) := by
  induction entries with
  | nil => rfl
  | cons entry rest ih =>
    rw [List.reverse_cons, List.find?_append, ih, lastPosition?]
    cases h : lastPosition? p rest with
    | none => by_cases hp : p entry = true <;> simp [hp]
    | some i => simp [List.getElem?_eq_getElem (lt_of_lastPosition? h)]

section Ascending

variable {entries : List Entry} (ascending : (entries.map (·.1)).Pairwise (· < ·))

include ascending

/-- The generations of an ascending list tell its positions apart. -/
theorem eq_of_generation_eq {i j : Nat} {e f : Entry} (hi : entries[i]? = some e)
    (hj : entries[j]? = some f) (h : e.1 = f.1) : i = j := by
  have hk : (entries.map (·.1))[i]? = (entries.map (·.1))[j]? := by simp [hi, hj, h]
  obtain ⟨hil, _⟩ := List.getElem?_eq_some_iff.1 hi
  exact (List.getElem?_inj (by simpa using hil)
    (ascending.imp fun h => Nat.ne_of_lt h)).1 hk

/-- The last position that a reader sees is that of the entry that it selects. -/
theorem lastPosition?_eq_some_iff (reader : Visibility) {i : Nat} {entry : Entry}
    (hi : entries[i]? = some entry) :
    lastPosition? (fun e => reader.canSee e.1) entries = some i ↔
      selected? reader entries = some entry.1 := by
  rw [selected?, find?_reverse_eq]
  constructor
  · intro h
    simp [h, hi]
  · intro h
    cases hl : lastPosition? (fun e => reader.canSee e.1) entries with
    | none => simp [hl] at h
    | some j =>
      have hj := List.getElem?_eq_getElem (lt_of_lastPosition? hl)
      rw [hl, Option.bind_some, hj, Option.map_some, Option.some.injEq] at h
      rw [eq_of_generation_eq ascending hj hi h]

/-- The base position of an open entry is that of the entry it was branched from. -/
theorem basePosition?_eq_some_iff (view : GcView) (other : Entry) {i : Nat} {entry : Entry}
    (hi : entries[i]? = some entry) :
    view.basePosition? entries other = some i ↔
      view.opened.contains other.1 = true ∧ other.2 = some entry.1 := by
  have hkey : (entries.map (·.1))[i]? = some entry.1 := by simp [hi]
  rw [basePosition?]
  split
  · next h =>
    rw [Option.bind_eq_some_iff]
    constructor
    · rintro ⟨base, hb, hp⟩
      rw [Bisection.position?_eq_some_iff ascending, hkey] at hp
      exact ⟨h, hb.trans hp.symm⟩
    · rintro ⟨_, hb⟩
      exact ⟨entry.1, hb, (Bisection.position?_eq_some_iff ascending).2 hkey⟩
  · next h => exact ⟨nofun, fun hb => absurd hb.1 h⟩

/-- A position is reached if a reader selects its entry, or an open entry was branched from it. -/
theorem mem_reachedPositions_iff (view : GcView) {i : Nat} {entry : Entry}
    (hi : entries[i]? = some entry) :
    i ∈ view.reachedPositions entries ↔
      (∃ reader ∈ view.readers, selected? reader entries = some entry.1) ∨
        ∃ other ∈ entries, view.opened.contains other.1 = true ∧ other.2 = some entry.1 := by
  simp only [reachedPositions, List.mem_append, List.mem_filterMap,
    lastPosition?_eq_some_iff ascending _ hi, basePosition?_eq_some_iff ascending view _ hi]

/-- In an ascending list the mask marks exactly the entries that the rule retains. -/
theorem retainMask_eq_map_retains (view : GcView) :
    view.retainMask entries = entries.map (view.retains entries) := by
  apply List.ext_getElem (by simp [retainMask])
  intro i h₁ h₂
  have hi : i < entries.length := by simpa using h₂
  have hmem := mem_reachedPositions_iff ascending view (List.getElem?_eq_getElem hi)
  simp only [retainMask, List.getElem_mapIdx, List.getElem_map, retains, Bool.or_assoc]
  congr 1
  rw [Bool.eq_iff_iff, List.contains_iff_mem, hmem]
  simp [List.any_eq_true]

end Ascending

end GcView

variable {α : Type}

/-- The entries of a chain. -/
def Chain.entries (c : Chain α) : List Entry :=
  c.records.map fun r => (r.generation, r.base)

/-- The items of a list that are marked. -/
def marked {β : Type} (items : List β) (mask : List Bool) : List β :=
  (items.zip mask).filterMap fun (item, keep) => if keep then some item else none

/-- To mark items by a test and keep the marked ones is to filter them. -/
theorem marked_map {β : Type} (items : List β) (p : β → Bool) :
    marked items (items.map p) = items.filter p := by
  induction items with
  | nil => rfl
  | cons item rest ih =>
    cases hp : p item <;> simpa [marked, hp] using ih

/-- Drops the records that no reader can reach; a chain of which nothing would stay is left as it
is. -/
def Chain.trim (c : Chain α) (view : GcView) : Chain α :=
  let mask := view.retainMask c.entries
  if mask.contains true then ⟨marked c.records mask⟩ else c

/-- The number of records that trimming drops. -/
def Chain.trimCount (c : Chain α) (view : GcView) : Nat :=
  c.size - (c.trim view).size

/-- The records of an ascending chain that stay are those that the rule retains, or all if it
retains none. -/
theorem Chain.records_trim {c : Chain α} (ascending : (c.entries.map (·.1)).Pairwise (· < ·))
    (view : GcView) :
    (c.trim view).records =
      let kept := c.records.filter fun r => view.retains c.entries (r.generation, r.base)
      if kept.isEmpty then c.records else kept := by
  have hmask : view.retainMask c.entries =
      c.records.map fun r => view.retains c.entries (r.generation, r.base) := by
    rw [GcView.retainMask_eq_map_retains ascending, entries, List.map_map]
    rfl
  simp only [trim, hmask, marked_map]
  cases h : c.records.filter fun r => view.retains c.entries (r.generation, r.base) with
  | nil =>
    have hnone : ((c.records.map fun r =>
        view.retains c.entries (r.generation, r.base)).contains true) = false := by
      simpa using h
    simp only [hnone, Bool.false_eq_true, if_false, List.isEmpty_nil, if_true]
  | cons r rest =>
    have hr := List.mem_filter.1 (h ▸ List.mem_cons_self : r ∈ c.records.filter _)
    have hsome : ((c.records.map fun r =>
        view.retains c.entries (r.generation, r.base)).contains true) = true := by
      simpa using ⟨r, hr⟩
    simp only [hsome, if_true, List.isEmpty_cons, Bool.false_eq_true, if_false]

end VersionedObjects.Store
