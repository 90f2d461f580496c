import Mathlib.Data.Fintype.Pigeonhole
import VersionedObjects.Proofs.Dynamic.Ancestry

/-!
# Paths of parts

To make an instance of a class the part of its superclass is made first, with the arguments that
the constructor hands on. Where the path of these parts leads is a matter of the classes and of the
number of the arguments only, so it ends within as many steps as there are classes and one more, or
never. Main statement: `Part.ends_iff`.
-/

namespace VersionedObjects.Dynamic

open Declaration

/-! ## The parts of an instance -/

/-- A part of an instance that is to be made: its class and the arguments of the constructor. -/
abbrev Part := LoadedClass × List Value

/-- The constructor by which instances of the class are made. -/
def LoadedClass.constructor (c : LoadedClass) : Constructor :=
  c.decl.constructors.head?.getD {}

/-- The arguments by the names of the parameters. -/
def Part.locals (part : Part) : Association Value :=
  .ofPairs ((part.1.constructor.params.map (·.name)).zip part.2)

/-- The arguments that a part hands to the part of its superclass. -/
def Part.superArgs (part : Part) : Except EvalError (List Value) :=
  (part.1.constructor.superCall.getD []).mapM (constant part.locals)

/-- The part of the superclass, which is made first: none if the superclass is not loaded, or if
making the part fails before that. -/
def Part.super? (table : ClassTable) (part : Part) : Option Part :=
  if part.1.constructor.params.length ≠ part.2.length then none
  else do
    let base ← part.1.superclassIn table
    let args ← part.superArgs.toOption
    return (base, args)

/-- The part that comes a number of steps up the path. -/
def Part.ancestor? (table : ClassTable) : Nat → Part → Option Part
  | 0, part => some part
  | n + 1, part => (part.super? table).bind (ancestor? table n)

/-- The path of superclasses comes to its end. -/
def Part.Ends (table : ClassTable) (part : Part) : Prop :=
  ∃ n, part.ancestor? table n = none

/-! ## The arguments of a superclass -/

mutual

/-- Whether an expression has a value is a matter of the names that are bound. -/
theorem exists_constant {locals other : Association Value}
    (h : ∀ id, (locals.get? id).isSome = true → (other.get? id).isSome = true) :
    (e : Expr) → ∀ v, constant locals e = .ok v → ∃ v', constant other e = .ok v'
  | .literal _, _, _ => ⟨_, rfl⟩
  | .list items, _, hv => by
    rw [constant] at hv ⊢
    cases hitems : constant.constants locals items with
    | error e => rw [hitems] at hv; cases hv
    | ok values =>
      obtain ⟨values', hvalues⟩ := exists_constants h items values hitems
      rw [hvalues]
      exact ⟨_, rfl⟩
  | .name id, _, hv => by
    rw [constant] at hv ⊢
    cases hfound : locals.get? id with
    | none => rw [hfound] at hv; cases hv
    | some v =>
      obtain ⟨v', hv'⟩ := Option.isSome_iff_exists.mp (h id (Option.isSome_of_eq_some hfound))
      rw [hv']
      exact ⟨_, rfl⟩
  | .this, _, hv | .backing, _, hv | .member .., _, hv | .readable .., _, hv
  | .writable .., _, hv | .cast .., _, hv | .newRecord _, _, hv | .newChain _, _, hv
  | .firstRecord _, _, hv | .prependRecord .., _, hv => by cases hv

/-- So it is for a list of expressions. -/
theorem exists_constants {locals other : Association Value}
    (h : ∀ id, (locals.get? id).isSome = true → (other.get? id).isSome = true) :
    (items : List Expr) → ∀ vs, constant.constants locals items = .ok vs →
      ∃ vs', constant.constants other items = .ok vs'
  | [], _, _ => ⟨_, rfl⟩
  | item :: rest, _, hvs => by
    rw [constant.constants] at hvs ⊢
    cases hitem : constant locals item with
    | error e => rw [hitem] at hvs; cases hvs
    | ok v =>
      cases hrest : constant.constants locals rest with
      | error e => rw [hitem, hrest] at hvs; cases hvs
      | ok vs =>
        obtain ⟨v', hv'⟩ := exists_constant h item v hitem
        obtain ⟨vs', hvs'⟩ := exists_constants h rest vs hrest
        rw [hv', hvs']
        exact ⟨_, rfl⟩

end

/-- By induction on the expressions: as many arguments come out. -/
theorem exists_mapM_constant {locals other : Association Value}
    (h : ∀ id, (locals.get? id).isSome = true → (other.get? id).isSome = true) {es : List Expr}
    {vs : List Value} (hvs : es.mapM (constant locals) = .ok vs) :
    ∃ vs', es.mapM (constant other) = .ok vs' ∧ vs'.length = vs.length := by
  induction es generalizing vs with
  | nil => cases hvs; exact ⟨[], rfl, rfl⟩
  | cons e rest ih =>
    rw [List.mapM_cons] at hvs ⊢
    cases he : constant locals e with
    | error error => rw [he] at hvs; cases hvs
    | ok v =>
      cases hrest : rest.mapM (constant locals) with
      | error error => rw [he, hrest] at hvs; cases hvs
      | ok vs =>
        rw [he, hrest] at hvs
        cases hvs
        obtain ⟨v', hv'⟩ := exists_constant h e v he
        obtain ⟨vs', hvs', hlength⟩ := ih hrest
        rw [hv', hvs']
        exact ⟨v' :: vs', rfl, congrArg Nat.succ hlength⟩

/-! ## Paths -/

namespace Part

variable {table : ClassTable} {part other : Part}

/-- Parts of one class with as many arguments, whatever these are. -/
def Alike (part other : Part) : Prop :=
  part.1 = other.1 ∧ part.2.length = other.2.length

/-- All parameters are bound. -/
theorem isSome_get?_locals (h : part.1.constructor.params.length = part.2.length) (id : String) :
    (part.locals.get? id).isSome = true ↔ id ∈ part.1.constructor.params.map (·.name) := by
  have hkeys : (((part.1.constructor.params.map (·.name)).zip part.2).map Prod.fst) =
      part.1.constructor.params.map (·.name) :=
    List.map_fst_zip (by simp [h])
  rw [locals, ← Association.has_eq_isSome_get?, Association.has_ofPairs, hkeys]

/-- Parts that are alike come to superclasses in the same way. -/
theorem Alike.super? (h : part.Alike other) {base : Part}
    (hbase : part.super? table = some base) :
    ∃ base', other.super? table = some base' ∧ base.Alike base' := by
  obtain ⟨hclass, hlength⟩ := h
  unfold Part.super? at hbase ⊢
  split at hbase
  · cases hbase
  · next harity =>
    obtain ⟨c, hc, hbase⟩ := Option.bind_eq_some_iff.mp hbase
    obtain ⟨args, hargs, hbase⟩ := Option.bind_eq_some_iff.mp hbase
    cases hbase
    have hparams := not_not.mp harity
    have hother : other.1.constructor.params.length = other.2.length := by
      rw [← hclass, hparams, hlength]
    have hsuper : part.superArgs = .ok args := by
      cases hresult : part.superArgs with
      | error e => rw [hresult] at hargs; cases hargs
      | ok args' => rw [hresult] at hargs; cases hargs; rfl
    have hbound (id : String) (hid : (part.locals.get? id).isSome = true) :
        (other.locals.get? id).isSome = true := by
      rw [isSome_get?_locals hparams] at hid
      rw [isSome_get?_locals hother, ← hclass]
      exact hid
    obtain ⟨args', hargs', hcount⟩ := exists_mapM_constant hbound hsuper
    rw [hclass] at hargs'
    have hother' : other.superArgs = .ok args' := hargs'
    rw [if_neg (not_not_intro hother), ← hclass, hc, hother']
    exact ⟨(c, args'), rfl, rfl, hcount.symm⟩

/-- By induction on the steps. -/
theorem Alike.ancestor? (h : part.Alike other) {n : Nat}
    (hn : part.ancestor? table n ≠ none) : other.ancestor? table n ≠ none := by
  induction n generalizing part other with
  | zero => nofun
  | succ n ih =>
    cases hsuper : part.super? table with
    | none => rw [Part.ancestor?, hsuper] at hn; exact absurd rfl hn
    | some base =>
      obtain ⟨base', hbase', halike⟩ := h.super? hsuper
      rw [Part.ancestor?, hsuper, Option.bind_some] at hn
      rw [Part.ancestor?, hbase', Option.bind_some]
      exact ih halike hn

/-- Steps one after the other. -/
theorem ancestor?_add (k n : Nat) (part : Part) :
    part.ancestor? table (k + n) = (part.ancestor? table k).bind (Part.ancestor? table n) := by
  induction k generalizing part with
  | zero => rw [Nat.zero_add, Part.ancestor?, Option.bind_some]
  | succ k ih =>
    rw [Nat.succ_add, Part.ancestor?, Part.ancestor?, Option.bind_assoc]
    congr 1
    funext base
    exact ih base

/-- A part with an ancestor so far up has all those in between. -/
theorem ancestor?_ne_none_of_le {k n : Nat} (hle : k ≤ n) (h : part.ancestor? table n ≠ none) :
    part.ancestor? table k ≠ none := by
  obtain ⟨d, rfl⟩ := Nat.exists_eq_add_of_le hle
  intro hnone
  rw [ancestor?_add, hnone] at h
  exact h rfl

/-- The class of the part is loaded. -/
def Loaded (table : ClassTable) (part : Part) : Prop :=
  ∃ i : Fin table.length, table[i].2 = part.1

/-- What the table gives under a name is a loaded part. -/
theorem loaded_of_get? {name : String} (h : table.get? name = some part.1) : part.Loaded table := by
  obtain ⟨entry, hentry, hclass⟩ := Option.map_eq_some_iff.mp h
  obtain ⟨i, hi, rfl⟩ := List.mem_iff_getElem.mp (List.mem_of_find?_eq_some hentry)
  exact ⟨⟨i, hi⟩, hclass⟩

/-- The superclass of a part is loaded. -/
theorem loaded_of_super? {base : Part} (h : part.super? table = some base) : base.Loaded table := by
  unfold Part.super? at h
  split at h
  · cases h
  · obtain ⟨c, hc, h⟩ := Option.bind_eq_some_iff.mp h
    obtain ⟨args, -, h⟩ := Option.bind_eq_some_iff.mp h
    cases h
    obtain ⟨type, -, hget⟩ := Option.bind_eq_some_iff.mp hc
    exact loaded_of_get? hget

/-- Every part on the path of a loaded class is of a loaded class. -/
theorem loaded_ancestor? (h : part.Loaded table) {n : Nat} {up : Part}
    (hup : part.ancestor? table n = some up) : up.Loaded table := by
  induction n generalizing part with
  | zero => cases hup; exact h
  | succ n ih =>
    obtain ⟨base, hbase, hup⟩ := Option.bind_eq_some_iff.mp hup
    exact ih (loaded_of_super? hbase) hup

/-- A part from which the path goes on has as many arguments as its class has parameters. -/
theorem length_of_super? (h : part.super? table ≠ none) :
    part.2.length = part.1.constructor.params.length := by
  unfold Part.super? at h
  split at h
  · exact absurd rfl h
  · next harity => exact (not_not.mp harity).symm

/-- A path that comes to a class twice, and goes on from it, never ends: from the second time on it
goes as it went from the first. -/
theorem ancestor?_ne_none_of_repeated {i j : Nat} (hij : i < j) {a b : Part}
    (ha : part.ancestor? table i = some a) (hb : part.ancestor? table j = some b)
    (halike : a.Alike b) (n : Nat) : part.ancestor? table n ≠ none := by
  induction n using Nat.strong_induction_on with
  | h n ih =>
    by_cases hn : n ≤ j
    · exact ancestor?_ne_none_of_le hn (by rw [hb]; nofun)
    · obtain ⟨k, rfl⟩ := Nat.exists_eq_add_of_le (Nat.le_of_not_le hn)
      have hearlier := ih (i + k) (by omega)
      rw [ancestor?_add, ha, Option.bind_some] at hearlier
      rw [ancestor?_add, hb, Option.bind_some]
      exact halike.ancestor? hearlier

/-- A path longer than there are classes comes to one of them twice, and never ends. -/
theorem ancestor?_ne_none_of_long (hpart : part.Loaded table)
    (hlong : part.ancestor? table (table.length + 1) ≠ none) (n : Nat) :
    part.ancestor? table n ≠ none := by
  have hparts (k : Fin (table.length + 1)) : ∃ up, part.ancestor? table k = some up ∧
      up.super? table ≠ none := by
    have hnext := ancestor?_ne_none_of_le (k := k + 1) (by omega) hlong
    rw [ancestor?_add] at hnext
    cases hup : part.ancestor? table k with
    | none => rw [hup] at hnext; exact absurd rfl hnext
    | some up =>
      refine ⟨up, rfl, fun hnone => hnext ?_⟩
      rw [hup, Option.bind_some, Part.ancestor?, hnone, Option.bind_none]
  choose ups hups hgoes using hparts
  choose positions hpositions using fun k => loaded_ancestor? hpart (hups k)
  have hcard : Fintype.card (Fin table.length) < Fintype.card (Fin (table.length + 1)) := by simp
  obtain ⟨i, j, hne, hsame⟩ := Fintype.exists_ne_map_eq_of_card_lt positions hcard
  have halike (i j : Fin (table.length + 1)) (h : positions i = positions j) :
      (ups i).Alike (ups j) := by
    have hclass : (ups i).1 = (ups j).1 := by rw [← hpositions i, ← hpositions j, h]
    exact ⟨hclass, by rw [length_of_super? (hgoes i), length_of_super? (hgoes j), hclass]⟩
  rcases Nat.lt_or_gt_of_ne (Fin.val_ne_of_ne hne) with hlt | hgt
  · exact ancestor?_ne_none_of_repeated hlt (hups i) (hups j) (halike i j hsame) n
  · exact ancestor?_ne_none_of_repeated hgt (hups j) (hups i) (halike j i hsame.symm) n

/-- A path that ends does so within as many steps as there are classes, and one more. -/
theorem ends_iff (h : part.Loaded table) :
    part.Ends table ↔ part.ancestor? table (table.length + 1) = none := by
  refine ⟨fun ⟨n, hn⟩ => ?_, fun hnone => ⟨_, hnone⟩⟩
  by_contra hlong
  exact ancestor?_ne_none_of_long h hlong n hn

/-- A path of superclasses that ends by their names ends whatever the arguments are. -/
theorem ends_of_endsWithin {n : Nat} (h : EndsWithin table n part.1) : part.Ends table := by
  refine ⟨n, ?_⟩
  induction n generalizing part with
  | zero => exact h.elim
  | succ n ih =>
    rw [Part.ancestor?, Option.bind_eq_none_iff]
    intro base hbase
    unfold Part.super? at hbase
    split at hbase
    · cases hbase
    · obtain ⟨c, hc, hbase⟩ := Option.bind_eq_some_iff.mp hbase
      obtain ⟨args, -, hbase⟩ := Option.bind_eq_some_iff.mp hbase
      cases hbase
      exact ih (h c hc)

end Part

end VersionedObjects.Dynamic
