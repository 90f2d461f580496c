import VersionedObjects.Dynamic.Value
import VersionedObjects.Proofs.Store.CommitOrder

/-!
# Merging slots

Records of loaded classes are merged slot by slot. Values compare as numbers do, so that equal
values need not be the same, but as long as there is no NaN among them it makes no difference which
of two records is merged into the other. Main statement: neither does it matter which of two frames
commits first, if nothing was committed since the older one was opened.
-/

namespace VersionedObjects

/-! ## Equality of values -/

namespace Number.Binary64

/-- Equal numbers are the same, or zeros. -/
theorem beq_iff {x y : Binary64} : (x == y) = true ↔
    x.isNaN = false ∧ y.isNaN = false ∧ (x = y ∨ x.magnitude = 0 ∧ y.magnitude = 0) := by
  have hbits : x.bits = y.bits ↔ x = y := by
    cases x
    cases y
    simp
  change (!x.isNaN && !y.isNaN && (x.bits == y.bits || (x.magnitude == 0 && y.magnitude == 0))) =
    true ↔ _
  simp [hbits, and_assoc]

instance : PartialEquivBEq Binary64 where
  symm := by
    intro x y h
    obtain ⟨hx, hy, hsame⟩ := beq_iff.mp h
    exact beq_iff.mpr ⟨hy, hx, hsame.imp Eq.symm And.symm⟩
  trans := by
    intro x y z h h'
    obtain ⟨hx, -, hsame⟩ := beq_iff.mp h
    obtain ⟨-, hz, hsame'⟩ := beq_iff.mp h'
    refine beq_iff.mpr ⟨hx, hz, ?_⟩
    rcases hsame with rfl | ⟨hx, hy⟩
    · exact hsame'
    · rcases hsame' with rfl | ⟨-, hz⟩
      · exact Or.inr ⟨hx, hy⟩
      · exact Or.inr ⟨hx, hz⟩

/-- Every number but NaN equals itself. -/
theorem beq_self_iff {x : Binary64} : (x == x) = true ↔ x.isNaN = false := by
  simp [beq_iff]

end Number.Binary64

namespace Dynamic

open Number (Binary64)
open Store Store.World

namespace Value

mutual

/-- No number in the value is NaN. -/
def nanFree : Value → Bool
  | float x => !x.isNaN
  | list items => allNanFree items
  | _ => true

/-- No number in any of the values is NaN. -/
def allNanFree : List Value → Bool
  | [] => true
  | value :: rest => value.nanFree && allNanFree rest

end

mutual

/-- Values are equal in either order. -/
theorem beq_symm : ∀ {a b : Value}, a.beq b = true → b.beq a = true
  | null, null, h => h
  | bool _, bool _, h | int _, int _, h | string _, string _, h => by
    rw [beq, beq_iff_eq] at h ⊢
    exact h.symm
  | float _, float _, h => by
    rw [beq] at h ⊢
    exact BEq.symm h
  | list _, list _, h => by
    rw [beq] at h ⊢
    exact beqList_symm h

/-- The same of the items of a list. -/
theorem beqList_symm : ∀ {as bs : List Value}, beqList as bs = true → beqList bs as = true
  | [], [], h => h
  | _ :: _, _ :: _, h => by
    obtain ⟨hfirst, hrest⟩ := Bool.and_eq_true_iff.mp h
    exact Bool.and_eq_true_iff.mpr ⟨beq_symm hfirst, beqList_symm hrest⟩

end

mutual

/-- Values that equal one value are equal. -/
theorem beq_trans : ∀ {a b c : Value}, a.beq b = true → b.beq c = true → a.beq c = true
  | null, null, _, _, h' => h'
  | bool _, bool _, _, h, h' | int _, int _, _, h, h' | string _, string _, _, h, h' => by
    rw [beq, beq_iff_eq] at h
    rwa [h]
  | float _, float _, float _, h, h' => by
    rw [beq] at h h' ⊢
    exact BEq.trans h h'
  | list _, list _, list _, h, h' => by
    rw [beq] at h h' ⊢
    exact beqList_trans h h'

/-- The same of the items of a list. -/
theorem beqList_trans : ∀ {as bs cs : List Value},
    beqList as bs = true → beqList bs cs = true → beqList as cs = true
  | [], [], _, _, h' => h'
  | _ :: _, _ :: _, _ :: _, h, h' => by
    obtain ⟨hfirst, hrest⟩ := Bool.and_eq_true_iff.mp h
    obtain ⟨hfirst', hrest'⟩ := Bool.and_eq_true_iff.mp h'
    exact Bool.and_eq_true_iff.mpr ⟨beq_trans hfirst hfirst', beqList_trans hrest hrest'⟩

end

instance : PartialEquivBEq Value where
  symm := beq_symm
  trans := beq_trans

mutual

/-- A value equals itself if and only if it contains no NaN. -/
theorem beq_self : ∀ a : Value, a.beq a = a.nanFree
  | null => rfl
  | bool _ | int _ | string _ => by simp [beq, nanFree]
  | float x => by
    rw [beq, nanFree, Bool.eq_iff_iff, Number.Binary64.beq_self_iff, Bool.not_eq_true']
  | list items => beqList_self items

/-- A list equals itself exactly if it has no number that differs from itself. -/
theorem beqList_self : ∀ as : List Value, beqList as as = allNanFree as
  | [] => rfl
  | a :: as => congrArg₂ and (beq_self a) (beqList_self as)

end

/-- A value equals itself if it has no number that differs from itself. -/
theorem beq_self_of_nanFree {a : Value} (ha : a.nanFree = true) : (a == a) = true :=
  (beq_self a).trans ha

end Value

/-! ## Merging -/

namespace Slots

/-- No number in the record is NaN. -/
def nanFree (s : Slots) : Bool :=
  s.all Value.nanFree

/-- Where no slot has a number that differs from itself the value of a slot has none. -/
theorem nanFree_slot {s : Slots} (hs : s.nanFree = true) (i : Nat) : (s.slot i).nanFree = true := by
  rw [slot]
  cases hi : s[i]? with
  | none => rfl
  | some value => exact List.all_eq_true.mp hs value (List.mem_of_getElem? hi)

/-- Slots equal themselves if they have no number that differs from itself. -/
theorem beq_self_of_nanFree {s : Slots} (hs : s.nanFree = true) : (s == s) = true := by
  induction s with
  | nil => rfl
  | cons value rest ih =>
    obtain ⟨hfirst, hrest⟩ := Bool.and_eq_true_iff.mp hs
    rw [List.cons_beq_cons, Value.beq_self_of_nanFree hfirst, ih hrest]
    rfl

/-- Two values of a slot can be merged into each other with equal results, or neither way. -/
theorem mergeSlot_swap {mine base theirs : Value} (hmine : mine.nanFree = true)
    (htheirs : theirs.nanFree = true) :
    Option.Rel (fun a b => (a == b) = true) (mergeSlot mine base theirs)
      (mergeSlot theirs base mine) := by
  have hself := Value.beq_self_of_nanFree hmine
  have hself' := Value.beq_self_of_nanFree htheirs
  rw [mergeSlot, mergeSlot, BEq.comm (a := theirs) (b := mine)]
  cases hsame : mine == theirs with
  | true => exact .some (BEq.symm hsame)
  | false =>
    cases hleft : mine == base with
    | true =>
      cases hright : theirs == base with
      | true =>
        -- Both sides equal the base, and so each other.
        rw [BEq.trans hleft (BEq.symm hright)] at hsame
        cases hsame
      | false => exact .some hself'
    | false =>
      cases theirs == base with
      | true => exact .some hself
      | false => exact .none

/-- Slots that are equal one by one make equal records. -/
theorem mapM_beq {f g : Nat → Option Value}
    (h : ∀ i, Option.Rel (fun a b => (a == b) = true) (f i) (g i)) (indices : List Nat) :
    Option.Rel (fun s t => (s == t) = true) (indices.mapM f) (indices.mapM g) := by
  induction indices with
  | nil => exact .some rfl
  | cons i rest ih =>
    rw [List.mapM_cons, List.mapM_cons]
    have hfirst := h i
    generalize f i = first at hfirst
    generalize g i = first' at hfirst
    generalize rest.mapM f = others at ih
    generalize rest.mapM g = others' at ih
    cases hfirst with
    | none => exact .none
    | some hvalue =>
      cases ih with
      | none => exact .none
      | some hvalues =>
        refine .some ?_
        rw [List.cons_beq_cons, hvalue, hvalues]
        rfl

/-- Two records can be merged into each other with equal results, or neither way. -/
theorem merge_swap {mine theirs : Slots} (base : Slots) (hmine : mine.nanFree = true)
    (htheirs : theirs.nanFree = true) :
    Option.Rel (fun s t => (s == t) = true) (merge mine base theirs) (merge theirs base mine) := by
  rw [merge, merge, Nat.max_comm theirs.length]
  refine mapM_beq (fun i => ?_) _
  exact mergeSlot_swap (nanFree_slot hmine i) (nanFree_slot htheirs i)

/-! ## The order of two commits -/

/-- **Commit order.** Two frames are open, and since the older one was opened every commit has
failed. Let the objects that either has records of hold slots without NaN. Then the frames may
commit in either order: the second commit conflicts in both, or all are successful, and both orders
leave equal values in the newest committed records. These are even the same for an object of which
not both frames have records. The order in which each commit goes through its objects makes no
difference to this. -/
theorem commit_order (config : Config) (before between : List (Call Slots))
    (options : FrameOptions) {f h : FrameId}
    (hopened : (((start Slots config).after before).perform (.openFrame options)).1 =
      .opened (.ok f))
    (hrefused : ∀ attempt ∈
      (((start Slots config).after before).step (.openFrame options)).commits between,
      ∃ refusal, outcome attempt = .error refusal) (hlt : f < h) :
    let w := (start Slots config).after (before ++ .openFrame options :: between)
    h < w.frames.length → (w.frame f).isActive = true → (w.frame h).isActive = true →
    (∀ o, w.Holds f o ∨ w.Holds h o → (w.object o).merge = merge ∧
      ∀ r ∈ (w.object o).chain.records, nanFree r.value = true) →
    (w.BothCommit f h ∧ w.BothCommit h f ∧ ∀ o,
      (w.Holds f o ∨ w.Holds h o → ∃ r s, (w.afterBoth f h).selectCommitted? o = some r ∧
        (w.afterBoth h f).selectCommitted? o = some s ∧ (r.value == s.value) = true) ∧
      (¬ (w.Holds f o ∧ w.Holds h o) →
        (w.afterBoth f h).selectCommitted? o = (w.afterBoth h f).selectCommitted? o)) ∨
    w.SecondConflicts f h ∧ w.SecondConflicts h f := by
  have hbeside := beside_after hopened hrefused hlt
  dsimp only at hbeside ⊢
  generalize (start Slots config).after (before ++ .openFrame options :: between) = w at hbeside
  intro hh hfactive hhactive hslots
  have hb := hbeside hh hfactive hhactive
  have hmerge {o : ObjectId} {mine base theirs : Record Slots}
      (hmeets : w.Meets h f o mine base theirs) :
      Option.Rel (fun s t => (s == t) = true)
        ((w.object o).merge mine.value base.value theirs.value)
        ((w.object o).merge theirs.value base.value mine.value) := by
    obtain ⟨hmerge, hfree⟩ := hslots o (Or.inr hmeets.holds.1)
    rw [hmerge]
    exact merge_swap base.value (hfree mine (Chain.mem_of_find? hmeets.mine_eq).1)
      (hfree theirs (Chain.mem_of_find? hmeets.theirs_eq).1)
  refine (hb.order fun o mine base theirs => hmerge).imp_left ?_
  rintro ⟨hboth, hboth', hnewest⟩
  refine ⟨hboth, hboth', fun o => ⟨fun heither => ?_, fun hnot => ((hnewest o).2 hnot).1⟩⟩
  by_cases hshared : w.Holds f o ∧ w.Holds h o
  · exact (hnewest o).1 hshared.1 hshared.2
  · -- The only new record is the newest one in either order.
    obtain ⟨hsame, hnew⟩ := (hnewest o).2 hshared
    obtain ⟨-, hfree⟩ := hslots o heither
    have hown {k : FrameId} {r : Record Slots}
        (hr : (w.object o).chain.find? (w.frame k).generation = some r)
        (hfound : (w.afterBoth f h).selectCommitted? o = some r) :
        ∃ r s, (w.afterBoth f h).selectCommitted? o = some r ∧
          (w.afterBoth h f).selectCommitted? o = some s ∧ (r.value == s.value) = true :=
      ⟨r, r, hfound, hsame ▸ hfound,
        beq_self_of_nanFree (hfree r (Chain.mem_of_find? hr).1)⟩
    cases hsecond : (w.object o).chain.find? (w.frame h).generation with
    | some theirs => exact hown hsecond (by rw [hnew, hsecond, Option.some_or])
    | none =>
      have hfirst : w.Holds f o := heither.resolve_right (by simp [Holds, hsecond])
      obtain ⟨mine, hmine⟩ := Option.isSome_iff_exists.mp hfirst
      exact hown hmine (by rw [hnew, hsecond, Option.none_or, hmine, Option.some_or])

/-- Two frames set the same slot to the two zeros, and one of them sets another slot as well. -/
def bothZeros : List (Call Slots) :=
  [.openFrame {}, .writeIn 0 0 (·.store 0 (.float Binary64.zero)),
    .writeIn 0 0 (·.store 1 (.bool true)), .writeIn 1 0 (·.store 0 (.float Binary64.zero.neg))]

/-- Both frames commit in either order. The records that are left differ by the sign of the zero,
but hold equal values. -/
theorem commit_order_of_zeros :
    let w := (start Slots { gc := .manual }).after
      ([.construct "Balance" merge [.null, .null]] ++ .openFrame {} :: bothZeros)
    w.BothCommit 0 1 ∧ w.BothCommit 1 0 ∧
      ∃ r s, (w.afterBoth 0 1).selectCommitted? 0 = some r ∧
        (w.afterBoth 1 0).selectCommitted? 0 = some s ∧ (r.value == s.value) = true ∧
        r.value = [.float Binary64.zero, .bool true] ∧
        s.value = [.float Binary64.zero.neg, .bool true] := by
  have horder := @commit_order { gc := .manual } [.construct "Balance" merge [.null, .null]]
    bothZeros {} 0 1 rfl nofun Nat.zero_lt_one
  dsimp only at horder ⊢
  generalize hw : (start Slots { gc := .manual }).after
    ([.construct "Balance" merge [.null, .null]] ++ .openFrame {} :: bothZeros) = w at horder ⊢
  have hslots : ∀ o, w.Holds 0 o ∨ w.Holds 1 o → (w.object o).merge = merge ∧
      ∀ r ∈ (w.object o).chain.records, nanFree r.value = true := by
    intro o hheld
    subst hw
    cases o with
    | zero => exact ⟨rfl, List.all_eq_true.mp (by decide +kernel)⟩
    | succ o => rcases hheld with hheld | hheld <;> cases hheld
  have hsecond : ((w.commit 0).2.commit 1).1 = .ok (.ok
      { generation := 3, changed := [0], merged := [0], mergedGenerations := [4] }) := by
    rw [← hw]
    decide +kernel
  have hfound : (w.afterBoth 0 1).selectCommitted? 0 = some
      { generation := 4, base := some 2, value := [.float Binary64.zero, .bool true] } := by
    rw [← hw]
    rfl
  have hfound' : (w.afterBoth 1 0).selectCommitted? 0 = some
      { generation := 4, base := some 3, value := [.float Binary64.zero.neg, .bool true] } := by
    rw [← hw]
    rfl
  have hheld : w.Holds 0 0 := by
    rw [← hw]
    decide +kernel
  rcases horder (by rw [← hw]; decide +kernel) (by rw [← hw]; decide +kernel)
    (by rw [← hw]; decide +kernel) hslots with
    ⟨hboth, hboth', hnewest⟩ | ⟨⟨_, _, _, _, _, -, hrefused⟩, -⟩
  · obtain ⟨r, s, hr, hs, hequal⟩ := (hnewest 0).1 (Or.inl hheld)
    obtain rfl := Option.some.inj (hfound.symm.trans hr)
    obtain rfl := Option.some.inj (hfound'.symm.trans hs)
    exact ⟨hboth, hboth', _, _, hr, hs, hequal, rfl, rfl⟩
  · cases hsecond.symm.trans hrefused

end Slots

end Dynamic

end VersionedObjects
