import VersionedObjects.Dynamic.Loading
import VersionedObjects.Proofs.Dynamic.Constants
import VersionedObjects.Proofs.Dynamic.SlotMerging
import VersionedObjects.Proofs.Grammar.Untypeable

/-!
# Printed values typed back

A value is printed as a constant expression. If its texts need no escape by a code point and its
numbers no exponent, the expression is read back and denotes the value. Otherwise nothing is: what
is read in its place is no constant, or something is left over. Main statement: `parse_text`.
-/

namespace VersionedObjects.Dynamic

open Declaration
open Grammar Grammar.Reader

/-! ## Constants as they are read -/

mutual

/-- A constant has no names, so all of them are well formed. -/
theorem wellNamed_of_isConstant : (e : Expr) → isConstant e = true → e.wellNamed = true
  | .literal _, _ => rfl
  | .list items, h => wellNamedList_of_areConstant items h

/-- The same of the items of a list. -/
theorem wellNamedList_of_areConstant :
    (items : List Expr) → areConstant items = true → Expr.wellNamedList items = true
  | [], _ => rfl
  | item :: rest, h => by
    rw [areConstant, Bool.and_eq_true] at h
    rw [Expr.wellNamedList, wellNamed_of_isConstant item h.1,
      wellNamedList_of_areConstant rest h.2]
    rfl

end

/-- Items are constant if each is. -/
theorem areConstant_eq_all (items : List Expr) : areConstant items = items.all isConstant := by
  induction items with
  | nil => rfl
  | cons item rest ih => rw [areConstant, ih, List.all_cons]

/-- A printed constant starts as an expression does. -/
theorem exists_cons_text_of_isConstant {e : Expr} (h : isConstant e = true) :
    ∃ c more, e.text.toList = c :: more ∧ startsExpr c = true := by
  cases e with
  | literal value => exact exists_cons_text_of_literal value
  | list items => exact ⟨'[', _, Expr.toList_text_list items, by decide⟩
  | _ => cases h

/-- Only literals, lists and names have a value without an instance, so no member has. -/
theorem constant_foldl_member {head : Expr} {path : List String} {w : Value}
    (h : constant [] (path.foldl .member head) = .ok w) : path = [] := by
  obtain rfl | ⟨first, last, rfl⟩ := List.eq_nil_or_concat path
  · rfl
  · rw [List.concat_eq_append, List.foldl_append] at h
    cases h

/-- A list has a value if its items have values. -/
theorem constant_list_eq_ok {locals : Association Value} {items : List Expr} {w : Value}
    (h : constant locals (.list items) = .ok w) :
    ∃ ws, constant.constants locals items = .ok ws := by
  rw [constant] at h
  cases hitems : constant.constants locals items with
  | ok ws => exact ⟨ws, rfl⟩
  | error e => rw [hitems] at h; cases h

/-- Items have values if the first one and the others do. -/
theorem constants_cons_eq_ok {locals : Association Value} {item : Expr} {rest : List Expr}
    {ws : List Value} (h : constant.constants locals (item :: rest) = .ok ws) :
    (∃ w, constant locals item = .ok w) ∧ ∃ ws', constant.constants locals rest = .ok ws' := by
  rw [constant.constants] at h
  cases hitem : constant locals item with
  | error e => rw [hitem] at h; cases h
  | ok w =>
    cases hrest : constant.constants locals rest with
    | ok ws' => exact ⟨⟨w, rfl⟩, ws', rfl⟩
    | error e => rw [hitem, hrest] at h; cases h

/-! ## What is read in the place of a constant -/

/-- What is read in the place of the expression has a value only if the expression can be typed,
unless an exponent is left over. -/
def ReadsBackOnly (depth : Nat) (e : Expr) : Prop :=
  ∀ ⦃rest mid : List Char⦄ ⦃found : Expr⦄ ⦃w : Value⦄, Ends [] rest →
    expr depth (e.text.toList ++ rest) = .done found mid → ¬ StartsExponent (skipBlanks mid) →
      constant [] found = .ok w → IsTypeable e

/-- A symbol that was read comes first after blanks. -/
theorem symbol_eq_done {c : Char} {s rest : List Char} (h : symbol c s = .done () rest) :
    skipBlanks s = c :: rest := by
  rw [symbol, spaced] at h
  cases hs : skipBlanks s with
  | nil =>
    rw [hs] at h
    cases h
  | cons d more =>
    rw [hs, char] at h
    split at h
    · next hd =>
      cases h
      rw [hd]
    · cases h

/-- Where another symbol was read no exponent starts. -/
theorem not_startsExponent_of_symbol {c : Char} (hc : c ≠ 'e') {s rest : List Char}
    (h : symbol c s = .done () rest) : ¬ StartsExponent (skipBlanks s) := by
  rw [symbol_eq_done h]
  rintro ⟨more, hcons⟩
  exact hc (List.cons.inj hcons).1

section Items

variable {depth : Nat} {items : List Expr} {s mid last rest : List Char} {found : List Expr}

/-- After an item comes another one or the end of the list, so no exponent is left over. -/
theorem not_startsExponent_of_items
    (hmore : many (do symbol ','; expr depth) s = .done found mid)
    (hend : symbol ']' mid = .done () last) : ¬ StartsExponent (skipBlanks s) := by
  obtain ⟨-, -, rfl⟩ | ⟨_, _, _, -, hstep, -⟩ := many_eq_done hmore
  · exact not_startsExponent_of_symbol (by decide) hend
  · obtain ⟨_, _, hcomma, -⟩ := bind_eq_done_iff.mp hstep
    exact not_startsExponent_of_symbol (by decide) hcomma

/-- An item of a list ends before the items after it and the bracket. -/
theorem ends_items (items : List Expr) (rest : List Char) :
    Ends [] ((items.flatMap fun item => [',', ' '] ++ item.text.toList) ++ ']' :: rest) := by
  cases items with
  | nil => exact .of_solid (by decide) (by decide) (by decide) _
  | cons item items => exact .of_solid (by decide) (by decide) (by decide) _

/-- An item that is read is the item that is printed there. -/
theorem eq_of_read_item {item e : Expr} {w : Value} (hitem : ReadsBackOnly depth item)
    (hdepth : item.text.toList.length < depth) (hrest : Ends [] rest)
    (hread : expr depth (item.text.toList ++ rest) = .done e s)
    (hmore : many (do symbol ','; expr depth) s = .done found mid)
    (hend : symbol ']' mid = .done () last) (hvalue : constant [] e = .ok w) :
    IsTypeable item ∧ s = rest := by
  have htypeable := hitem hrest hread (not_startsExponent_of_items hmore hend) hvalue
  have hback := reads_expr depth htypeable hdepth rest hrest
  rw [hread] at hback
  cases hback
  exact ⟨htypeable, rfl⟩

/-- The items of a list that is read are typeable. By induction on the items. -/
theorem typeable_of_items
    (hitems : ∀ item ∈ items, item.text.toList.length < depth ∧ ReadsBackOnly depth item)
    (hmore : many (do symbol ','; expr depth)
      ((items.flatMap fun item => [',', ' '] ++ item.text.toList) ++ ']' :: rest) =
        .done found mid)
    (hend : symbol ']' mid = .done () last) {ws : List Value}
    (hvalues : constant.constants [] found = .ok ws) : ∀ item ∈ items, IsTypeable item := by
  induction items generalizing found ws with
  | nil => exact List.forall_mem_nil _
  | cons item items ih =>
    rw [List.forall_mem_cons] at hitems ⊢
    obtain ⟨-, -, rfl⟩ | ⟨e, left, more, rfl, hstep, hmore⟩ := many_eq_done hmore
    · have hcons := symbol_eq_done hend
      rw [List.flatMap_cons, List.append_assoc, List.append_assoc, List.cons_append,
        skipBlanks_cons_of_isSolid (by decide)] at hcons
      exact absurd (List.cons.inj hcons).1 (by decide)
    · obtain ⟨_, after, hcomma, hread⟩ := bind_eq_done_iff.mp hstep
      obtain ⟨⟨w, hvalue⟩, ws', hvalues⟩ := constants_cons_eq_ok hvalues
      have hafter : after = ' ' :: (item.text.toList ++
          ((items.flatMap fun item => [',', ' '] ++ item.text.toList) ++ ']' :: rest)) := by
        have hcons := symbol_eq_done hcomma
        rw [List.flatMap_cons, List.append_assoc, List.append_assoc, List.cons_append,
          skipBlanks_cons_of_isSolid (by decide)] at hcons
        exact (List.cons.inj hcons).2.symm
      rw [hafter, ← lenient_expr, skipBlanks_cons_of_isSpace (by decide), lenient_expr] at hread
      obtain ⟨htypeable, rfl⟩ := eq_of_read_item hitems.1.2 hitems.1.1 (ends_items items rest)
        hread hmore hend hvalue
      exact ⟨htypeable, ih hitems.2 hmore hvalues⟩

end Items

/-- After an opening bracket only a list is read. -/
theorem primary_of_bracket {depth : Nat} {s mid : List Char} {head : Expr}
    (h : primary depth ('[' :: s) = .done head mid) : ∃ found after,
      sepBy (symbol ',') (expr depth) s = .done found after ∧
        symbol ']' after = .done () mid ∧ head = .list found := by
  have hword : ('[' :: s).takeWhile isIdentChar = [] :=
    (avoids_cons.mpr (by decide)).takeWhile_eq_nil
  have hempty : ∀ word ∈ literalWords, [] ≠ word.toList := by decide
  have hliteral : literal.Misses ('[' :: s) :=
    misses_literal (avoids_cons.mpr (by decide)) (by rwa [hword])
  have hthis : (keyword "this").Misses ('[' :: s) := misses_keyword (by decide) (by simp [hword])
  have hfield : (keyword "field").Misses ('[' :: s) := misses_keyword (by decide) (by simp [hword])
  have hname : identifier.Misses ('[' :: s) := misses_identifier (avoids_cons.mpr (by decide))
  obtain h | ⟨-, h⟩ := orElse_eq_done h
  · obtain ⟨fault, hmiss⟩ := Misses.bind hliteral fun value => pure (Expr.literal value)
    rw [hmiss] at h
    cases h
  obtain h | ⟨-, h⟩ := orElse_eq_done h
  · obtain ⟨_, start, hbracket, h⟩ := bind_eq_done_iff.mp h
    obtain ⟨found, after, hfound, h⟩ := bind_eq_done_iff.mp h
    obtain ⟨_, last, hend, hvalue⟩ := bind_eq_done_iff.mp h
    rw [commit_eq_done_iff] at hend
    have hstart := reads_char '[' s trivial
    rw [List.singleton_append, hbracket] at hstart
    cases hstart
    cases hvalue
    exact ⟨found, after, hfound, hend, rfl⟩
  obtain ⟨fault, hmiss⟩ : Misses _ ('[' :: s) :=
    misses_orElse_iff.mpr ⟨hthis.bind _, misses_orElse_iff.mpr ⟨hfield.bind _, hname.bind _⟩⟩
  rw [hmiss] at h
  cases h

/-- The items between brackets are typeable if they are read and have values. -/
theorem typeable_of_sepBy {depth : Nat} {items found : List Expr} {mid last rest : List Char}
    {ws : List Value} (hitems : ∀ item ∈ items, isConstant item = true ∧
      item.text.toList.length < depth ∧ ReadsBackOnly depth item)
    (hread : sepBy (symbol ',') (expr depth) (Expr.itemsText items ++ ']' :: rest) =
      .done found mid)
    (hend : symbol ']' mid = .done () last)
    (hvalues : constant.constants [] found = .ok ws) : ∀ item ∈ items, IsTypeable item := by
  cases items with
  | nil => exact List.forall_mem_nil _
  | cons item items =>
    rw [List.forall_mem_cons] at hitems ⊢
    obtain ⟨⟨hconstant, hdepth, hitem⟩, hmore⟩ := hitems
    rw [Expr.itemsText, List.append_assoc] at hread
    obtain ⟨listed, after, hlisted, hvalue⟩ := bind_eq_done_iff.mp hread
    obtain ⟨all, rfl, hall⟩ | ⟨-, rfl, rfl⟩ := optional_eq_done hlisted
    · obtain ⟨first, next, hfirst, hnext⟩ := bind_eq_done_iff.mp hall
      obtain ⟨more, left, hrest, hdone⟩ := bind_eq_done_iff.mp hnext
      cases hdone
      cases hvalue
      obtain ⟨⟨w, hvalue⟩, ws', hvalues⟩ := constants_cons_eq_ok hvalues
      obtain ⟨htypeable, rfl⟩ := eq_of_read_item hitem hdepth (ends_items items rest) hfirst hrest
        hend hvalue
      exact ⟨htypeable, typeable_of_items (fun item hmem => (hmore item hmem).2) hrest hend hvalues⟩
    · -- where no item is read the list is not closed
      cases hvalue
      obtain ⟨c, more, htext, hstart⟩ := exists_cons_text_of_isConstant hconstant
      have hcons := symbol_eq_done hend
      rw [htext, List.cons_append,
        skipBlanks_cons_of_isSolid (isSolid_of_startsExpr hstart)] at hcons
      rw [(List.cons.inj hcons).1] at hstart
      exact absurd hstart (by decide)

/-- A constant in whose place a value is read is typeable. By induction on the depth; the items of
a list have shorter texts. -/
theorem readsBackOnly (depth : Nat) {e : Expr} (he : isConstant e = true)
    (hdepth : e.text.toList.length < depth) : ReadsBackOnly depth e := by
  induction depth generalizing e with
  | zero => exact absurd hdepth (Nat.not_lt_zero _)
  | succ depth ih =>
    intro rest mid found w hrest hread hleft hvalue
    cases e with
    | literal value =>
      cases htypeable : value.isTypeable with
      | true => exact ⟨rfl, by simpa [Expr.literals] using htypeable⟩
      | false =>
        obtain ⟨id, rfl⟩ | ⟨more, rfl⟩ := expr_of_not_isTypeable htypeable hdepth hrest hread
        · cases hvalue
        · rw [skipBlanks_cons_of_isSolid (by decide)] at hleft
          exact absurd ⟨more, rfl⟩ hleft
    | list items =>
      have hconstant : ∀ item ∈ items, isConstant item = true := by
        rwa [isConstant, areConstant_eq_all, List.all_eq_true] at he
      rw [Expr.toList_text_list] at hread hdepth
      rw [List.append_assoc, List.append_assoc, expr_succ] at hread
      obtain ⟨head, after, hhead, hread⟩ := bind_eq_done_iff.mp hread
      obtain ⟨path, last, -, hfound⟩ := bind_eq_done_iff.mp hread
      cases hfound
      obtain rfl := constant_foldl_member hvalue
      rw [spaced, List.singleton_append, skipBlanks_cons_of_isSolid (by decide)] at hhead
      obtain ⟨found, left, hitems, hend, rfl⟩ := primary_of_bracket hhead
      obtain ⟨ws, hvalues⟩ := constant_list_eq_ok hvalue
      have htypeable : ∀ item ∈ items, IsTypeable item := by
        refine typeable_of_sepBy (fun item hmem => ?_) hitems hend hvalues
        have hle := Expr.length_le_itemsText hmem
        simp only [List.length_append, List.length_singleton] at hdepth
        exact ⟨hconstant item hmem, by omega, ih (hconstant item hmem) (by omega)⟩
      refine ⟨wellNamed_of_isConstant _ he, ?_⟩
      rw [Expr.literals, Expr.literalsList_eq_flatMap]
      intro value hvalue
      obtain ⟨item, hmem, hliteral⟩ := List.mem_flatMap.mp hvalue
      exact (htypeable item hmem).literals value hliteral
    | _ => cases he

/-! ## Values as constants -/

namespace Value

mutual

/-- The value is printed in the syntax of literals and lists: its texts have only printable
characters, newlines and tabs, and its numbers are of the positional range. -/
def isTypeable : Value → Bool
  | null | bool _ | int _ => true
  | float x => x.isPositional
  | string text => text.toList.all isTypeableChar
  | list items => areTypeable items

/-- All values are printed in the syntax of literals and lists. -/
def areTypeable : List Value → Bool
  | [] => true
  | item :: rest => item.isTypeable && areTypeable rest

end

mutual

/-- The constant that the value is printed as. -/
def toExpr : Value → Expr
  | null => .literal .null
  | bool value => .literal (.bool value)
  | int value => .literal (.int value)
  | float value => .literal (.float value)
  | string value => .literal (.string value)
  | list items => .list (toExprs items)

/-- The constants that the values are printed as. -/
def toExprs : List Value → List Expr
  | [] => []
  | item :: rest => item.toExpr :: toExprs rest

end

mutual

/-- A value is printed as the expression that it is the value of. -/
theorem text_toExpr : ∀ v : Value, v.toExpr.text = v.text
  | null | bool _ | int _ | float _ | string _ => rfl
  | list [] => rfl
  | list (item :: rest) => by
    rw [toExpr, toExprs, Expr.text, text, text_toExpr item, textMore_toExprs rest]

/-- The same of the items of a list after the first. -/
theorem textMore_toExprs : ∀ items : List Value, Expr.textMore (toExprs items) = textMore items
  | [] => rfl
  | item :: rest => by
    rw [toExprs, Expr.textMore, textMore, text_toExpr item, textMore_toExprs rest]

end

mutual

/-- The expression of a value is a constant. -/
theorem isConstant_toExpr : ∀ v : Value, isConstant v.toExpr = true
  | null | bool _ | int _ | float _ | string _ => rfl
  | list items => areConstant_toExprs items

/-- The same of the items of a list. -/
theorem areConstant_toExprs : ∀ items : List Value, areConstant (toExprs items) = true
  | [] => rfl
  | item :: rest => by
    rw [toExprs, areConstant, isConstant_toExpr item, areConstant_toExprs rest]
    rfl

end

mutual

/-- The expression of a value has that value. -/
theorem constantValue_toExpr : ∀ v : Value, constantValue v.toExpr = v
  | null | bool _ | int _ | float _ | string _ => rfl
  | list items => congrArg list (constantValues_toExprs items)

/-- The same of the items of a list. -/
theorem constantValues_toExprs : ∀ items : List Value, constantValues (toExprs items) = items
  | [] => rfl
  | item :: rest => by
    rw [toExprs, constantValues, constantValue_toExpr item, constantValues_toExprs rest]

end

mutual

/-- The literals of a value's expression are read back exactly if the value is. -/
theorem all_literals_toExpr : ∀ v : Value, v.toExpr.literals.all Literal.isTypeable = v.isTypeable
  | null | bool _ | int _ | float _ | string _ => by
    simp [toExpr, Expr.literals, Literal.isTypeable, isTypeable]
  | list items => all_literalsList_toExprs items

/-- The same of the items of a list. -/
theorem all_literalsList_toExprs : ∀ items : List Value,
    (Expr.literalsList (toExprs items)).all Literal.isTypeable = areTypeable items
  | [] => rfl
  | item :: rest => by
    rw [toExprs, Expr.literalsList, List.all_append, all_literals_toExpr item,
      all_literalsList_toExprs rest, areTypeable]

end

/-- The value is typeable if and only if its constant is. -/
theorem isTypeable_toExpr (v : Value) : IsTypeable v.toExpr ↔ v.isTypeable = true := by
  rw [← all_literals_toExpr, List.all_eq_true]
  exact ⟨fun h => h.literals, fun h => ⟨wellNamed_of_isConstant _ v.isConstant_toExpr, h⟩⟩

mutual

/-- Numbers of the positional range are not NaN. -/
theorem nanFree_of_isTypeable : ∀ v : Value, v.isTypeable = true → v.nanFree = true
  | null, _ | bool _, _ | int _, _ | string _, _ => rfl
  | float x, h => by
    rw [isTypeable, Number.Binary64.isPositional, Bool.and_eq_true, Number.Binary64.isFinite,
      decide_eq_true_eq] at h
    rw [nanFree, Number.Binary64.isNaN, Bool.not_eq_true', decide_eq_false_iff_not]
    omega
  | list items, h => allNanFree_of_areTypeable items h

/-- No item of a list that is read back is a number that differs from itself. -/
theorem allNanFree_of_areTypeable : ∀ items : List Value,
    areTypeable items = true → allNanFree items = true
  | [], _ => rfl
  | item :: rest, h => by
    rw [areTypeable, Bool.and_eq_true] at h
    rw [allNanFree, nanFree_of_isTypeable item h.1, allNanFree_of_areTypeable rest h.2]
    rfl

end

/-! ## Typing a printed value -/

/-- The end of a text is read where nothing but blanks is left. -/
theorem endOfText_eq_done_iff {s rest : List Char} :
    spaced endOfText s = .done () rest ↔ skipBlanks s = [] ∧ rest = [] := by
  rw [spaced]
  cases skipBlanks s with
  | nil => simp [endOfText, eq_comm]
  | cons c more => simp [endOfText]

/-- A lone expression is read where nothing but blanks follows. -/
theorem wholeExpr_eq_done_iff {depth : Nat} {s rest : List Char} {e : Expr} :
    wholeExpr depth s = .done e rest ↔
      ∃ mid, expr depth s = .done e mid ∧ skipBlanks mid = [] ∧ rest = [] := by
  constructor
  · intro h
    obtain ⟨found, mid, hread, h⟩ := bind_eq_done_iff.mp h
    obtain ⟨_, last, hend, hvalue⟩ := bind_eq_done_iff.mp h
    cases hvalue
    rw [within_eq_done_iff, endOfText_eq_done_iff] at hend
    exact ⟨mid, hread, hend⟩
  · rintro ⟨mid, hread, hend, rfl⟩
    refine bind_eq_done_iff.mpr ⟨e, mid, hread, bind_eq_done_iff.mpr ⟨(), [], ?_, rfl⟩⟩
    rw [within_eq_done_iff, endOfText_eq_done_iff]
    exact ⟨hend, rfl⟩

/-- A text is read as an expression up to blanks at its end. -/
theorem parseExpr_eq_ok_iff {source : String} {e : Expr} : parseExpr source = .ok e ↔
    ∃ rest, expr (source.toList.length + 1) source.toList = .done e rest ∧
      skipBlanks rest = [] := by
  have hparse : parseExpr source = .ok e ↔
      ∃ rest, wholeExpr (source.toList.length + 1) source.toList = .done e rest := by
    unfold parseExpr readWhole
    cases hread : wholeExpr (source.toList.length + 1) source.toList <;> simp [hread]
  rw [hparse]
  constructor
  · rintro ⟨rest, h⟩
    obtain ⟨mid, hread, hend, -⟩ := wholeExpr_eq_done_iff.mp h
    exact ⟨mid, hread, hend⟩
  · rintro ⟨mid, hread, hend⟩
    exact ⟨[], wholeExpr_eq_done_iff.mpr ⟨mid, hread, hend, rfl⟩⟩

/-- A text is parsed to a value exactly if it is an expression that has the value without any names.
-/
theorem parse_eq_ok_iff {source : String} {w : Value} : parse source = .ok w ↔
    ∃ e, parseExpr source = .ok e ∧ constant [] e = .ok w := by
  rw [parse]
  cases parseExpr source with
  | error fault => exact ⟨nofun, by rintro ⟨e, ⟨⟩, -⟩⟩
  | ok e =>
    change (constant [] e).mapError ProgramError.eval = .ok w ↔ _
    cases hvalue : constant [] e with
    | error fault => simp [Except.mapError, hvalue]
    | ok value => simp [Except.mapError, hvalue]

/-- A value of literals that are read back is parsed back. -/
theorem parse_text_of_isTypeable {v : Value} (h : v.isTypeable = true) :
    parse v.text = .ok v := by
  have hread := reads_expr (v.text.toList.length + 1) ((isTypeable_toExpr v).mpr h)
    (by rw [text_toExpr]; exact Nat.lt_succ_self _) [] ⟨avoids_nil _, avoids_nil _⟩
  rw [text_toExpr, List.append_nil] at hread
  have hvalue := constant_eq [] v.toExpr v.isConstant_toExpr
  rw [constantValue_toExpr] at hvalue
  exact parse_eq_ok_iff.mpr ⟨v.toExpr, parseExpr_eq_ok_iff.mpr ⟨[], hread, rfl⟩, hvalue⟩

/-- A value that is parsed to anything at all has only literals that are read back. -/
theorem isTypeable_of_parse_text {v w : Value} (h : parse v.text = .ok w) :
    v.isTypeable = true := by
  obtain ⟨e, hexpr, hvalue⟩ := parse_eq_ok_iff.mp h
  obtain ⟨rest, hread, hend⟩ := parseExpr_eq_ok_iff.mp hexpr
  rw [← isTypeable_toExpr]
  have honly := readsBackOnly (v.text.toList.length + 1) v.isConstant_toExpr
    (by rw [text_toExpr]; exact Nat.lt_succ_self _)
  have hread' : expr (v.text.toList.length + 1) (v.toExpr.text.toList ++ []) = .done e rest := by
    rw [text_toExpr, List.append_nil, hread]
  have hleft : ¬ StartsExponent (skipBlanks rest) := by
    rw [hend]
    rintro ⟨more, hcons⟩
    cases hcons
  exact honly ⟨avoids_nil _, avoids_nil _⟩ hread' hleft hvalue

/-- A printed value that is typed back is the same value. This holds of the values whose texts have
only printable characters, newlines and tabs, and whose numbers are zero or of magnitude at least
`0.0001` and below `1e16`; the text of any other value denotes none. -/
theorem parse_text (v : Value) :
    if v.isTypeable then parse v.text = .ok v ∧ (v == v) = true
    else ∃ e, parse v.text = .error e := by
  split
  · next h =>
    exact ⟨parse_text_of_isTypeable h, beq_self_of_nanFree (nanFree_of_isTypeable v h)⟩
  · next h =>
    cases hparse : parse v.text with
    | ok w => exact absurd (isTypeable_of_parse_text hparse) h
    | error e => exact ⟨e, rfl⟩

/-- A number that is typed positionally and printed with an exponent is not typed back. -/
theorem typed_number_lost :
    (parse "10000000000000000.0").toOption.map text = some "1e16" ∧
      (parse "1e16").toOption.isNone = true := by
  decide +kernel

end Value

end VersionedObjects.Dynamic
