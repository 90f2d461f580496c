import VersionedObjects.Proofs.Store.Calls

/-!
# Renamed objects

In a run in which some objects are not made, the others have other numbers: each has its position
among them. Calls and answers are renamed by these positions, and what is not among the others
takes the number of no object that was made.
-/

namespace VersionedObjects.Store

variable {α : Type}

/-- The positions of those objects that are among others. -/
def positions (others objects : List ObjectId) : List ObjectId :=
  (objects.filter (others.contains ·)).map others.idxOf

section Positions

variable {others : List ObjectId} {o p : ObjectId}

/-- No object has no position. -/
@[simp] theorem positions_nil (others : List ObjectId) : positions others [] = [] :=
  rfl

/-- A shared object comes first under its new name. -/
theorem positions_cons_of_mem (ho : o ∈ others) (rest : List ObjectId) :
    positions others (o :: rest) = others.idxOf o :: positions others rest := by
  rw [positions, List.filter_cons_of_pos (List.contains_iff_mem.mpr ho), List.map_cons, positions]

/-- An object that is not shared is passed over. -/
theorem positions_cons_of_notMem (ho : o ∉ others) (rest : List ObjectId) :
    positions others (o :: rest) = positions others rest := by
  rw [positions, List.filter_cons_of_neg fun h => ho (List.contains_iff_mem.mp h), positions]

/-- The positions of two lists in a row are those of the one and then of the other. -/
theorem positions_append (others objects more : List ObjectId) :
    positions others (objects ++ more) = positions others objects ++ positions others more := by
  simp [positions]

/-- The new name of a shared object is among the positions exactly when the object is among the
objects. -/
theorem mem_positions_idxOf (ho : o ∈ others) (objects : List ObjectId) :
    others.idxOf o ∈ positions others objects ↔ o ∈ objects := by
  simp only [positions, List.mem_map, List.mem_filter, List.contains_iff_mem]
  constructor
  · rintro ⟨p, ⟨hp, hmem⟩, hpos⟩
    rwa [← (List.idxOf_inj hmem).mp hpos]
  · exact fun h => ⟨o, ⟨h, ho⟩, rfl⟩

/-- Objects that all are among others each have a position. -/
theorem positions_eq_map {objects : List ObjectId} (h : ∀ o ∈ objects, o ∈ others) :
    positions others objects = objects.map others.idxOf := by
  rw [positions, List.filter_eq_self.mpr fun o ho => List.contains_iff_mem.mpr (h o ho)]

/-- In the list of all objects every object keeps its name. -/
theorem idxOf_range {n : Nat} (h : o < n) : (List.range n).idxOf o = o := by
  have hlength : o < (List.range n).length := List.length_range.symm ▸ h
  have hpos := List.nodup_range.idxOf_getElem o hlength
  rwa [List.getElem_range] at hpos

/-- Among all objects that were made each has its own number. -/
theorem positions_range {n : Nat} {objects : List ObjectId} (h : ∀ o ∈ objects, o < n) :
    positions (List.range n) objects = objects := by
  rw [positions_eq_map fun o ho => List.mem_range.mpr (h o ho)]
  conv_rhs => rw [← List.map_id objects]
  exact List.map_congr_left fun o ho => idxOf_range (h o ho)

/-- One more object comes after the others. -/
theorem idxOf_concat_self (hnew : p ∉ others) : (others ++ [p]).idxOf p = others.length := by
  rw [List.idxOf_append_of_notMem hnew, List.idxOf_cons_self, Nat.add_zero]

/-- The first time that an object stands among objects is the first time that its position does. -/
theorem positions_erase (ho : o ∈ others) (objects : List ObjectId) :
    positions others (objects.erase o) = (positions others objects).erase (others.idxOf o) := by
  induction objects with
  | nil => rfl
  | cons p rest ih =>
    by_cases hpo : p = o
    · rw [hpo, List.erase_cons_head, positions_cons_of_mem ho, List.erase_cons_head]
    · rw [List.erase_cons_tail (by simpa using hpo)]
      by_cases hp : p ∈ others
      · have hne : others.idxOf p ≠ others.idxOf o := fun heq =>
          hpo ((List.idxOf_inj hp).mp heq)
        rw [positions_cons_of_mem hp, positions_cons_of_mem hp,
          List.erase_cons_tail (by simpa using hne), ih]
      · rw [positions_cons_of_notMem hp, positions_cons_of_notMem hp, ih]

/-- An object that is not among others has no position to take away. -/
theorem positions_erase_of_notMem (ho : o ∉ others) (objects : List ObjectId) :
    positions others (objects.erase o) = positions others objects := by
  induction objects with
  | nil => rfl
  | cons p rest ih =>
    by_cases hpo : p = o
    · rw [hpo, List.erase_cons_head, positions_cons_of_notMem ho]
    · rw [List.erase_cons_tail (by simpa using hpo)]
      by_cases hp : p ∈ others
      · rw [positions_cons_of_mem hp, positions_cons_of_mem hp, ih]
      · rw [positions_cons_of_notMem hp, positions_cons_of_notMem hp, ih]

/-- To arrange objects and to rename them is to arrange the renamed objects. By induction on the
listing: what of it is not among the others moves no object that is. -/
theorem arrange_positions (others listing objects : List ObjectId) :
    arrange (positions others listing) (positions others objects) =
      positions others (arrange listing objects) := by
  induction listing generalizing objects with
  | nil => rfl
  | cons o rest ih =>
    rw [arrange]
    by_cases ho : o ∈ others
    · have hmem : (positions others objects).contains (others.idxOf o) = objects.contains o := by
        rw [Bool.eq_iff_iff, List.contains_iff_mem, List.contains_iff_mem]
        exact mem_positions_idxOf ho objects
      rw [positions_cons_of_mem ho, arrange, hmem]
      split
      · rw [positions_cons_of_mem ho, ← positions_erase ho, ih]
      · exact ih objects
    · rw [positions_cons_of_notMem ho]
      split
      · rw [positions_cons_of_notMem ho, ← ih, positions_erase_of_notMem ho]
      · exact ih objects

end Positions

/-! ## Objects to come -/

/-- All others of a run are those that there are, followed by objects that are not made yet. -/
def Foresees (all others : List ObjectId) (made : Nat) : Prop :=
  ∃ later, all = others ++ later ∧ ∀ o ∈ later, made ≤ o

namespace Foresees

variable {all others : List ObjectId} {made : Nat} {o : ObjectId}

/-- At the end of a run nothing is to come. -/
theorem refl (others : List ObjectId) (made : Nat) : Foresees others others made :=
  ⟨[], (List.append_nil others).symm, fun _ => nofun⟩

/-- The others are among all. -/
theorem mem (h : Foresees all others made) (ho : o ∈ others) : o ∈ all := by
  obtain ⟨later, rfl, -⟩ := h
  exact List.mem_append_left later ho

/-- Each of the others has the position among all that it has already. -/
theorem idxOf_eq (h : Foresees all others made) (ho : o ∈ others) :
    all.idxOf o = others.idxOf o := by
  obtain ⟨later, rfl, -⟩ := h
  exact List.idxOf_append_of_mem ho

/-- What was made is among all if it is among the others already. -/
theorem mem_iff (h : Foresees all others made) (ho : o < made) : o ∈ all ↔ o ∈ others := by
  obtain ⟨later, rfl, hlater⟩ := h
  rw [List.mem_append]
  exact or_iff_left fun hmem => Nat.not_lt_of_le (hlater o hmem) ho

/-- What is not among the others comes, if at all, after them. -/
theorem length_le_idxOf (h : Foresees all others made) (ho : o ∉ others) :
    others.length ≤ all.idxOf o := by
  obtain ⟨later, rfl, -⟩ := h
  rw [List.idxOf_append_of_notMem ho]
  exact Nat.le_add_right _ _

/-- Objects that were made have the positions among all that they have already. -/
theorem positions_eq (h : Foresees all others made) {objects : List ObjectId}
    (hmade : ∀ o ∈ objects, o < made) : positions all objects = positions others objects := by
  induction objects with
  | nil => rfl
  | cons o rest ih =>
    have ih := ih fun p hp => hmade p (List.mem_cons_of_mem o hp)
    have hmem := h.mem_iff (hmade o List.mem_cons_self)
    by_cases ho : o ∈ others
    · rw [positions_cons_of_mem (hmem.mpr ho), positions_cons_of_mem ho, h.idxOf_eq ho, ih]
    · rw [positions_cons_of_notMem (mt hmem.mp ho), positions_cons_of_notMem ho, ih]

end Foresees

/-! ## Frames and merges -/

/-- The options with the objects of the listing renamed. -/
def FrameOptions.renamed (others : List ObjectId) (options : FrameOptions) : FrameOptions :=
  { options with listing := positions others options.listing }

/-- To rename objects does not change what an observer has still to do. -/
theorem FrameOptions.afterFirstWrite_renamed (others : List ObjectId) (options : FrameOptions) :
    (options.renamed others).afterFirstWrite = options.afterFirstWrite.renamed others := by
  unfold afterFirstWrite
  split <;> split <;> first | rfl | contradiction

/-- The frame with its objects renamed. -/
def Frame.renamed (others : List ObjectId) (frame : Frame) : Frame :=
  { frame with
    options := frame.options.renamed others
    touched := positions others frame.touched
    written := positions others frame.written }

/-- The renamed frame lists the renamed objects. -/
theorem Frame.listed_renamed (others : List ObjectId) (frame : Frame) :
    (frame.renamed others).listed = positions others frame.listed :=
  arrange_positions others frame.options.listing frame.touched

/-- The merge with its object renamed. -/
def PendingMerge.renamed (others : List ObjectId) (merge : PendingMerge α) : PendingMerge α :=
  { merge with object := others.idxOf merge.object }

/-- Renamed merges publish the same. -/
theorem published?_renamed {others : List ObjectId} {merges : List (PendingMerge α)}
    (hmem : ∀ merge ∈ merges, merge.object ∈ others) (next : Generation) (o : ObjectId) :
    published? next (merges.map (·.renamed others)) (others.idxOf o) =
      published? next merges o := by
  induction merges generalizing next with
  | nil => rfl
  | cons merge rest ih =>
    have hinj : others.idxOf merge.object = others.idxOf o ↔ merge.object = o :=
      List.idxOf_inj (hmem merge List.mem_cons_self)
    have hrest := ih (fun other hother => hmem other (List.mem_cons_of_mem _ hother)) (next + 1)
    rw [List.map_cons, published?, published?, hrest]
    simp only [PendingMerge.renamed, hinj]

/-! ## Answers and calls -/

/-- The refusal with its object renamed. -/
def Refusal.renamed (others : List ObjectId) : Refusal → Refusal
  | conflict o typeName generation committed =>
    conflict (others.idxOf o) typeName generation committed
  | tooManyOpenFrames limit => tooManyOpenFrames limit

/-- The event without the objects that are not among others, which are renamed. -/
def CommitEvent.renamed (others : List ObjectId) (event : CommitEvent) : CommitEvent :=
  { event with
    changed := positions others event.changed
    merged := positions others event.merged }

/-- The outcome of a commit, renamed. -/
def renamedOutcome (others : List ObjectId) :
    Except Refusal CommitEvent → Except Refusal CommitEvent
  | .error refusal => .error (refusal.renamed others)
  | .ok event => .ok (event.renamed others)

/-- The violation with its object renamed. -/
def Violation.renamed (others : List ObjectId) : Violation → Violation
  | invisible typeName o generation => invisible typeName (others.idxOf o) generation
  | uncommitted typeName o => uncommitted typeName (others.idxOf o)
  | noBase typeName o generation => noBase typeName (others.idxOf o) generation
  | noFrame typeName o => noFrame typeName (others.idxOf o)
  | readOnlyFrame typeName o generation => readOnlyFrame typeName (others.idxOf o) generation
  | foreignFrame typeName o generation => foreignFrame typeName (others.idxOf o) generation
  | closedFrame action generation state => closedFrame action generation state
  | otherFrameCurrent entered current => otherFrameCurrent entered current

/-- The answer with its objects renamed. -/
def Answer.renamed (others : List ObjectId) : Answer α → Answer α
  | committed (.ok outcome) => committed (.ok (renamedOutcome others outcome))
  | made o => made (others.idxOf o)
  | record (.error violation) => record (.error (violation.renamed others))
  | answer => answer

/-- The call with its objects renamed. -/
def Call.renamed (others : List ObjectId) : Call α → Call α
  | openFrame options => openFrame (options.renamed others)
  | announce o => announce (others.idxOf o)
  | read o => read (others.idxOf o)
  | readIn f o => readIn f (others.idxOf o)
  | hasVisibleRecord o => hasVisibleRecord (others.idxOf o)
  | write o change => write (others.idxOf o) change
  | writeIn f o change => writeIn f (others.idxOf o) change
  | collect o => collect (others.idxOf o)
  | call => call

/-- The object that a call names. -/
def Call.object? : Call α → Option ObjectId
  | announce o | read o | readIn _ o | hasVisibleRecord o | write o _ | writeIn _ o _
  | collect o => some o
  | _ => none

end VersionedObjects.Store
