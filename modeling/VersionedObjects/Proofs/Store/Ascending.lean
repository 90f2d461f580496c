import VersionedObjects.Store.Retention
import Mathlib.Data.List.Nodup

/-!
# Ascending chains

The records of a chain ascend by generation. In such a chain a generation has at most one record,
looking from the end finds the greatest generation, and every operation on the chain is described
by the records it holds afterwards. The order itself is kept by all of them.
-/

namespace VersionedObjects.Store

variable {α : Type}

namespace Chain

/-- The records ascend strictly by generation. -/
def Ascending (c : Chain α) : Prop :=
  c.records.Pairwise fun r s => r.generation < s.generation

/-- Trimming reads the same order off the entries of the chain. -/
theorem Ascending.entries {c : Chain α} (hc : c.Ascending) :
    (c.entries.map (·.1)).Pairwise (· < ·) := by
  rw [Chain.entries, List.map_map, List.pairwise_map]
  exact hc

/-- A generation has at most one record. -/
theorem Ascending.eq_of_generation_eq {c : Chain α} (hc : c.Ascending) {r s : Record α}
    (hr : r ∈ c.records) (hs : s ∈ c.records) (h : r.generation = s.generation) : r = s := by
  have hnodup : (c.records.map (·.generation)).Nodup :=
    List.pairwise_map.mpr (hc.imp Nat.ne_of_lt)
  exact List.inj_on_of_nodup_map hnodup hr hs h

/-- A record that is alone in an ascending chain is there once. -/
theorem Ascending.records_eq_singleton {c : Chain α} (hc : c.Ascending) {r : Record α}
    (hr : r ∈ c.records) (hsole : ∀ s ∈ c.records, s = r) : c.records = [r] := by
  rw [Ascending] at hc
  match hrecords : c.records with
  | [] => simp [hrecords] at hr
  | [s] => rw [hsole s (by simp [hrecords])]
  | s :: t :: rest =>
    rw [hsole s (by simp [hrecords]), hsole t (by simp [hrecords])] at hrecords
    rw [hrecords] at hc
    exact absurd (List.rel_of_pairwise_cons hc List.mem_cons_self) (Nat.lt_irrefl _)

/-- A part of an ascending chain ascends. -/
theorem Ascending.of_sublist {c d : Chain α} (hc : c.Ascending)
    (h : d.records.Sublist c.records) : d.Ascending :=
  List.Pairwise.sublist h hc

/-- A chain of one record ascends. -/
theorem ascending_singleton (r : Record α) : (singleton r).Ascending :=
  List.pairwise_singleton _ r

/-! ## Finding records -/

/-- No record is found exactly when none has the generation. -/
theorem find?_eq_none_iff {c : Chain α} {g : Generation} :
    c.find? g = none ↔ ∀ r ∈ c.records, r.generation ≠ g := by
  simp [find?]

/-- The record found has the generation asked for. -/
theorem mem_of_find? {c : Chain α} {g : Generation} {r : Record α} (h : c.find? g = some r) :
    r ∈ c.records ∧ r.generation = g :=
  ⟨List.mem_of_find?_eq_some h, by simpa using List.find?_some h⟩

/-- In an ascending chain the record of a generation is the one that is found. -/
theorem Ascending.find?_eq_some_iff {c : Chain α} (hc : c.Ascending) {g : Generation}
    {r : Record α} : c.find? g = some r ↔ r ∈ c.records ∧ r.generation = g := by
  refine ⟨mem_of_find?, fun ⟨hr, hg⟩ => ?_⟩
  cases hs : c.find? g with
  | none => exact absurd hg (find?_eq_none_iff.mp hs r hr)
  | some s =>
    obtain ⟨hmem, hgen⟩ := mem_of_find? hs
    rw [hc.eq_of_generation_eq hmem hr (hgen.trans hg.symm)]

/-- A chain with the same records of a generation as an ascending one finds the same one. -/
theorem Ascending.find?_congr {c d : Chain α} (hd : d.Ascending)
    {g : Generation} (h : ∀ r, r.generation = g → (r ∈ d.records ↔ r ∈ c.records)) :
    d.find? g = c.find? g := by
  cases hfind : c.find? g with
  | none =>
    rw [find?_eq_none_iff] at hfind ⊢
    exact fun r hr hgen => hfind r ((h r hgen).mp hr) hgen
  | some r =>
    obtain ⟨hr, hgen⟩ := mem_of_find? hfind
    exact hd.find?_eq_some_iff.mpr ⟨(h r hgen).mpr hr, hgen⟩

/-- There is no newest record exactly when none fits. -/
theorem newest?_eq_none_iff {c : Chain α} {p : Record α → Bool} :
    c.newest? p = none ↔ ∀ r ∈ c.records, ¬ p r = true := by
  simp [newest?]

/-- In an ascending chain the newest record with a property is the one of the greatest
generation. -/
theorem Ascending.newest?_eq_some_iff {c : Chain α} (hc : c.Ascending) {p : Record α → Bool}
    {r : Record α} :
    c.newest? p = some r ↔
      r ∈ c.records ∧ p r = true ∧ ∀ s ∈ c.records, p s = true → s.generation ≤ r.generation := by
  have hfound {r : Record α} (h : c.newest? p = some r) :
      r ∈ c.records ∧ p r = true ∧
        ∀ s ∈ c.records, p s = true → s.generation ≤ r.generation := by
    obtain ⟨hp, later, earlier, hsplit, hlater⟩ := List.find?_eq_some_iff_append.mp h
    have hrecords : c.records = earlier.reverse ++ r :: later.reverse := by
      rw [← List.reverse_reverse c.records, hsplit]
      simp
    refine ⟨by simp [hrecords], hp, fun s hs hps => ?_⟩
    have hsorted := hc
    rw [Ascending, hrecords, List.pairwise_append] at hsorted
    rw [hrecords, List.mem_append, List.mem_cons] at hs
    rcases hs with hs | rfl | hs
    · exact Nat.le_of_lt (hsorted.2.2 s hs r (by simp))
    · exact Nat.le_refl _
    · have := hlater s (by simpa using hs)
      simp [hps] at this
  refine ⟨hfound, fun ⟨hr, hp, hmax⟩ => ?_⟩
  cases hs : c.newest? p with
  | none => exact absurd hp (newest?_eq_none_iff.mp hs r hr)
  | some s =>
    obtain ⟨hmem, hps, hs_max⟩ := hfound hs
    rw [hc.eq_of_generation_eq hmem hr (Nat.le_antisymm (hmax s hmem hps) (hs_max r hr hp))]

/-- The newest record with a property stays the newest in a part of the chain that still holds
it. -/
theorem Ascending.newest?_eq_of_subset {c d : Chain α} (hc : c.Ascending) (hd : d.Ascending)
    {p : Record α → Bool} (hsub : ∀ r ∈ d.records, p r = true → r ∈ c.records)
    (hkept : ∀ r, c.newest? p = some r → r ∈ d.records) : d.newest? p = c.newest? p := by
  cases hr : c.newest? p with
  | none =>
    rw [newest?_eq_none_iff] at hr ⊢
    exact fun r hmem hp => hr r (hsub r hmem hp) hp
  | some r =>
    obtain ⟨_, hp, hmax⟩ := hc.newest?_eq_some_iff.mp hr
    exact hd.newest?_eq_some_iff.mpr
      ⟨hkept r hr, hp, fun s hs hps => hmax s (hsub s hs hps) hps⟩

/-- Two chains that hold the same records with a property agree on the newest of them. -/
theorem Ascending.newest?_congr {c d : Chain α} (hc : c.Ascending) (hd : d.Ascending)
    {p q : Record α → Bool}
    (h : ∀ r, r ∈ d.records ∧ q r = true ↔ r ∈ c.records ∧ p r = true) :
    d.newest? q = c.newest? p := by
  cases hr : c.newest? p with
  | none =>
    rw [newest?_eq_none_iff] at hr ⊢
    intro r hmem hq
    obtain ⟨hmem', hp⟩ := (h r).mp ⟨hmem, hq⟩
    exact hr r hmem' hp
  | some r =>
    obtain ⟨hmem, hp, hmax⟩ := hc.newest?_eq_some_iff.mp hr
    obtain ⟨hmem', hq⟩ := (h r).mpr ⟨hmem, hp⟩
    refine hd.newest?_eq_some_iff.mpr ⟨hmem', hq, fun s hs hqs => ?_⟩
    obtain ⟨hs', hps⟩ := (h s).mp ⟨hs, hqs⟩
    exact hmax s hs' hps

/-! ## Linking and unlinking -/

/-- Linking a record of a new generation adds exactly that record. -/
theorem mem_link {c : Chain α} {r s : Record α} (hnew : c.find? r.generation = none) :
    s ∈ (c.link r).records ↔ s = r ∨ s ∈ c.records := by
  have hsplit := List.takeWhile_append_dropWhile
    (p := fun s : Record α => decide (s.generation < r.generation)) (l := c.records)
  have hlink : (c.link r).records =
      c.records.takeWhile (fun s => decide (s.generation < r.generation)) ++
        r :: c.records.dropWhile (fun s => decide (s.generation < r.generation)) := by
    simp [link, hnew]
  conv_rhs => rw [← hsplit]
  rw [hlink]
  simp only [List.mem_append, List.mem_cons]
  exact or_left_comm

/-- Linking adds at most the record. -/
theorem eq_or_mem_of_mem_link {c : Chain α} {r s : Record α} (hs : s ∈ (c.link r).records) :
    s = r ∨ s ∈ c.records := by
  cases hfind : c.find? r.generation with
  | none => exact (mem_link hfind).mp hs
  | some mine =>
    rw [link, hfind] at hs
    exact Or.inr hs

/-- A record put behind all smaller ones of an ascending list leaves it ascending. -/
theorem pairwise_insert {records : List (Record α)} {r : Record α}
    (hsorted : records.Pairwise fun r s => r.generation < s.generation)
    (hne : ∀ s ∈ records, s.generation ≠ r.generation) :
    (records.takeWhile (·.generation < r.generation) ++
      r :: records.dropWhile (·.generation < r.generation)).Pairwise
        fun r s => r.generation < s.generation := by
  induction records with
  | nil => simp
  | cons s rest ih =>
    obtain ⟨hfirst, hrest⟩ := List.pairwise_cons.mp hsorted
    have ih := ih hrest fun t ht => hne t (List.mem_cons_of_mem s ht)
    by_cases hs : s.generation < r.generation
    · rw [List.takeWhile_cons_of_pos (by simpa using hs),
        List.dropWhile_cons_of_pos (by simpa using hs), List.cons_append, List.pairwise_cons]
      refine ⟨fun t ht => ?_, ih⟩
      rw [List.mem_append, List.mem_cons] at ht
      rcases ht with ht | rfl | ht
      · exact hfirst t (List.takeWhile_subset _ ht)
      · exact hs
      · exact hfirst t (List.dropWhile_subset _ ht)
    · have hrs : r.generation < s.generation :=
        Nat.lt_of_le_of_ne (Nat.le_of_not_lt hs) (hne s List.mem_cons_self).symm
      rw [List.takeWhile_cons_of_neg (by simpa using hs),
        List.dropWhile_cons_of_neg (by simpa using hs), List.nil_append, List.pairwise_cons]
      refine ⟨fun t ht => ?_, hsorted⟩
      rcases List.mem_cons.mp ht with rfl | ht
      · exact hrs
      · exact Nat.lt_trans hrs (hfirst t ht)

/-- Linking keeps the order. -/
theorem Ascending.link {c : Chain α} (hc : c.Ascending) (r : Record α) : (c.link r).Ascending := by
  unfold Chain.link
  split
  · exact hc
  · next hnew =>
    exact pairwise_insert hc (find?_eq_none_iff.mp (by simpa using hnew))

/-- A chain that holds another record beside the one of a generation can give that one up. -/
theorem canUnlink_of_mem {c : Chain α} {r s : Record α} (hr : r ∈ c.records)
    (hs : s ∈ c.records) (hne : s ≠ r) : c.canUnlink r.generation = true := by
  have hsize : 1 < c.records.length := by
    match hrecords : c.records with
    | [] => simp [hrecords] at hr
    | [t] => simp_all
    | _ :: _ :: _ => simp
  have hfound : (c.find? r.generation).isSome = true := by
    rw [Option.isSome_iff_ne_none]
    exact fun h => find?_eq_none_iff.mp h r hr rfl
  simp [canUnlink, size, hsize, hfound]

/-- Unlinking takes out exactly the record of the generation. -/
theorem mem_unlink {c : Chain α} {g : Generation} (h : c.canUnlink g = true) {r : Record α} :
    r ∈ (c.unlink g).records ↔ r ∈ c.records ∧ r.generation ≠ g := by
  simp [unlink, h]

/-- Unlinking adds nothing. -/
theorem mem_of_mem_unlink {c : Chain α} {g : Generation} {r : Record α}
    (hr : r ∈ (c.unlink g).records) : r ∈ c.records := by
  by_cases h : c.canUnlink g = true
  · exact ((mem_unlink h).mp hr).1
  · rw [unlink, if_neg h] at hr
    exact hr

/-- Unlinking keeps the order. -/
theorem Ascending.unlink {c : Chain α} (hc : c.Ascending) (g : Generation) :
    (c.unlink g).Ascending := by
  unfold Chain.unlink
  split
  · exact hc.of_sublist List.filter_sublist
  · exact hc

/-! ## Changing records in place -/

/-- The records of a modified chain are the old ones, with that of the generation changed. -/
theorem mem_modify {c : Chain α} {g : Generation} {f : Record α → Record α} {r : Record α} :
    r ∈ (c.modify g f).records ↔
      ∃ s ∈ c.records, (if s.generation = g then f s else s) = r := by
  simp [modify]

/-- A chain without a record of the generation is not changed. -/
theorem modify_eq_self {c : Chain α} {g : Generation} (h : c.find? g = none)
    (f : Record α → Record α) : c.modify g f = c := by
  have hmap : (c.records.map fun r => if r.generation = g then f r else r) = c.records := by
    conv_rhs => rw [← List.map_id c.records]
    apply List.map_congr_left
    intro r hr
    rw [if_neg (find?_eq_none_iff.mp h r hr)]
    rfl
  simp [modify, hmap]

/-- Changes that keep the generations keep the order. -/
theorem Ascending.modify {c : Chain α} (hc : c.Ascending) (g : Generation)
    {f : Record α → Record α} (hf : ∀ r, (f r).generation = r.generation) :
    (c.modify g f).Ascending := by
  rw [Ascending, Chain.modify, List.pairwise_map]
  refine hc.imp fun h => ?_
  split <;> split <;> simpa only [hf] using h

/-- Discarding a generation that wrote nothing leaves the chain alone. -/
theorem discard_eq_self {c : Chain α} {g : Generation} (h : c.find? g = none) :
    c.discard g = c := by
  have hunlink : c.canUnlink g = false := by simp [canUnlink, h]
  rw [discard, hunlink]
  exact modify_eq_self h _

/-- Discarding leaves the records of other generations alone. -/
theorem mem_discard_of_ne {c : Chain α} {g : Generation} {r : Record α}
    (hne : r.generation ≠ g) : r ∈ (c.discard g).records ↔ r ∈ c.records := by
  unfold discard
  split
  · next h => rw [mem_unlink h, and_iff_left hne]
  · rw [mem_modify]
    constructor
    · rintro ⟨s, hs, rfl⟩
      split at hne
      · next heq => exact absurd heq hne
      · next hs' =>
        rwa [if_neg hs']
    · exact fun hr => ⟨r, hr, if_neg hne⟩

/-- Discarding adds no generation. -/
theorem exists_of_mem_discard {c : Chain α} {g : Generation} {r : Record α}
    (hr : r ∈ (c.discard g).records) : ∃ s ∈ c.records, s.generation = r.generation := by
  unfold discard at hr
  split at hr
  · exact ⟨r, mem_of_mem_unlink hr, rfl⟩
  · obtain ⟨s, hs, rfl⟩ := mem_modify.mp hr
    refine ⟨s, hs, ?_⟩
    split <;> rfl

/-- Discarding keeps the order. -/
theorem Ascending.discard {c : Chain α} (hc : c.Ascending) (g : Generation) :
    (c.discard g).Ascending := by
  unfold Chain.discard
  split
  · exact hc.unlink g
  · exact hc.modify g fun _ => rfl

/-! ## Trimming -/

/-- Trimming only drops records. -/
theorem Ascending.trim_sublist {c : Chain α} (hc : c.Ascending) (view : GcView) :
    (c.trim view).records.Sublist c.records := by
  rw [records_trim hc.entries]
  dsimp only
  split
  · exact List.Sublist.refl _
  · exact List.filter_sublist

/-- Trimming keeps every record that the rule retains. -/
theorem Ascending.mem_trim {c : Chain α} (hc : c.Ascending) {view : GcView} {r : Record α}
    (hr : r ∈ c.records) (h : view.retains c.entries (r.generation, r.base) = true) :
    r ∈ (c.trim view).records := by
  rw [records_trim hc.entries]
  dsimp only
  split
  · exact hr
  · exact List.mem_filter.mpr ⟨hr, h⟩

/-- Trimming never drops the last record. -/
theorem Ascending.trim_eq_self_of_sole {c : Chain α} (hc : c.Ascending) {r : Record α}
    (h : c.records = [r]) (view : GcView) : c.trim view = c := by
  have hrecords : (c.trim view).records = c.records := by
    rw [records_trim hc.entries]
    dsimp only
    split
    · rfl
    · next hkept =>
      rw [h] at hkept ⊢
      by_cases hr : view.retains c.entries (r.generation, r.base) = true <;> simp_all
  cases hd : c.trim view
  cases c
  simp_all

/-- Trimming keeps the order. -/
theorem Ascending.trim {c : Chain α} (hc : c.Ascending) (view : GcView) :
    (c.trim view).Ascending :=
  hc.of_sublist (hc.trim_sublist view)

end Chain

end VersionedObjects.Store
