import VersionedObjects.Proofs.Grammar.WellNamed

/-!
# Types and expressions read back

A well named type or expression is read back from the text it is printed as. The depth a reader
is given bounds how deep its text nests, so it is enough that the depth exceeds the length of the
text. What may follow is fixed: after an expression comes no further member, after a type no
argument and no mark.
-/

namespace VersionedObjects.Grammar

/-- What one item contributes is no longer than what all do. -/
theorem length_le_flatMap {α β : Type} {a : α} {as : List α} (h : a ∈ as) (f : α → List β) :
    (f a).length ≤ (as.flatMap f).length :=
  (List.sublist_flatten_of_mem (List.mem_map_of_mem h)).length_le

end VersionedObjects.Grammar

namespace VersionedObjects.Declaration

/-! ## Literals of an expression -/

namespace Expr

mutual

/-- The literals in the expression. -/
def literals : Expr → List Literal
  | literal value => [value]
  | this | name _ | backing | newRecord _ => []
  | list items => literalsList items
  | member target _ => target.literals
  | readable chain owner | writable chain owner => chain.literals ++ owner.literals
  | cast expr _ => expr.literals
  | newChain inner | firstRecord inner => inner.literals
  | prependRecord chain record => chain.literals ++ record.literals

/-- The literals in the expressions. -/
def literalsList : List Expr → List Literal
  | [] => []
  | item :: rest => item.literals ++ literalsList rest

end

/-- The literals of items are those of each in a row. -/
theorem literalsList_eq_flatMap (items : List Expr) :
    literalsList items = items.flatMap literals := by
  induction items with
  | nil => rfl
  | cons item rest ih => simp [literalsList, ih]

/-- The names that follow the head of an expression have no literals. -/
theorem literals_head (e : Expr) : e.head.literals = e.literals := by
  fun_induction head e with
  | case1 target id ih => rw [ih, literals]
  | case2 => rfl

/-- Only a member has names that follow its head. -/
theorem path_eq_nil {e : Expr} (h : ∀ target id, e = member target id → False) : e.path = [] := by
  cases e with
  | member target id => exact (h target id rfl).elim
  | _ => rfl

/-- The head of an expression has no names that follow. -/
theorem path_head (e : Expr) : e.head.path = [] := by
  fun_induction head e with
  | case1 target id ih => exact ih
  | case2 e he => exact path_eq_nil he

/-- In a well-named expression the head is well named, and the names that follow are identifiers. -/
theorem wellNamed_head_path {e : Expr} (h : e.wellNamed = true) :
    e.head.wellNamed = true ∧ ∀ id ∈ e.path, Framing.isIdentifier id = true := by
  fun_induction head e with
  | case1 target id ih =>
    rw [wellNamed, Bool.and_eq_true] at h
    obtain ⟨hhead, hpath⟩ := ih h.1
    refine ⟨hhead, fun name hname => ?_⟩
    rw [path, List.mem_append, List.mem_singleton] at hname
    obtain hname | rfl := hname
    · exact hpath name hname
    · exact h.2
  | case2 e he =>
    rw [path_eq_nil he]
    exact ⟨h, List.forall_mem_nil _⟩

/-! ## Texts as characters -/

/-- An expression is printed as the head of its path and the members after it. -/
theorem toList_text (e : Expr) :
    e.text.toList = e.head.text.toList ++ e.path.flatMap fun id => '.' :: id.toList := by
  fun_induction head e with
  | case1 target id ih =>
    rw [text, path, List.flatMap_append, ← List.append_assoc, ← ih]
    simp
  | case2 e he => rw [path_eq_nil he, List.flatMap_nil, List.append_nil]

/-- The items after the first are each printed after a comma and a space. -/
theorem toList_textMore (items : List Expr) :
    (textMore items).toList = items.flatMap fun item => [',', ' '] ++ item.text.toList := by
  induction items with
  | nil => rfl
  | cons item rest ih => simp [textMore, ih]

/-- Items of a list as they stand between the brackets. -/
def itemsText : List Expr → List Char
  | [] => []
  | item :: rest => item.text.toList ++ rest.flatMap fun item => [',', ' '] ++ item.text.toList

/-- A list is printed as its items between brackets. -/
theorem toList_text_list (items : List Expr) :
    (list items).text.toList = ['['] ++ (itemsText items ++ [']']) := by
  cases items <;> simp [text, itemsText, toList_textMore]

/-- No item is printed longer than all of them. -/
theorem length_le_itemsText {item : Expr} {items : List Expr} (h : item ∈ items) :
    item.text.toList.length ≤ (itemsText items).length := by
  cases items with
  | nil => cases h
  | cons first rest =>
    obtain rfl | h := List.mem_cons.mp h
    · simp only [itemsText, List.length_append]
      omega
    · have hmore := Grammar.length_le_flatMap h fun item => [',', ' '] ++ item.text.toList
      simp only [itemsText, List.length_append] at hmore ⊢
      omega

end Expr

namespace TypeExpr

/-- The arguments after the first are each printed after a comma and a space. -/
theorem toList_textMore (args : List TypeExpr) :
    (textMore args).toList = args.flatMap fun arg => [',', ' '] ++ arg.text.toList := by
  induction args with
  | nil => rfl
  | cons arg rest ih => simp [textMore, ih]

/-- Type arguments as they stand after a name. -/
def argumentsText : List TypeExpr → List Char
  | [] => []
  | arg :: rest =>
    ['<'] ++ (arg.text.toList ++ (rest.flatMap fun arg => [',', ' '] ++ arg.text.toList) ++ ['>'])

/-- The mark of a nullable type. -/
def markText (nullable : Bool) : List Char :=
  if nullable then ['?'] else []

/-- A type is printed as its name, its arguments and its mark. -/
theorem toList_text (name : String) (args : List TypeExpr) (nullable : Bool) :
    (mk name args nullable).text.toList =
      name.toList ++ (argumentsText args ++ markText nullable) := by
  cases args <;> cases nullable <;> simp [text, argumentsText, markText, toList_textMore]

/-- No argument is printed longer than all of them. -/
theorem length_le_argumentsText {arg : TypeExpr} {args : List TypeExpr} (h : arg ∈ args) :
    arg.text.toList.length ≤ (argumentsText args).length := by
  cases args with
  | nil => cases h
  | cons first rest =>
    obtain rfl | h := List.mem_cons.mp h
    · simp only [argumentsText, List.length_append]
      omega
    · have hmore := Grammar.length_le_flatMap h fun arg => [',', ' '] ++ arg.text.toList
      simp only [argumentsText, List.length_append] at hmore ⊢
      omega

end TypeExpr

end VersionedObjects.Declaration

namespace VersionedObjects.Grammar

open Declaration
open Framing (isIdentifier)
open Reader

/-! ## What may follow -/

/-- A solid character is what comes first after blanks. -/
theorem avoids_skipBlanks_cons {bad : Char → Bool} {c : Char} (hc : isSolid c = true)
    (h : bad c = false) (s : List Char) : Avoids bad (skipBlanks (c :: s)) := by
  rwa [skipBlanks_cons_of_isSolid hc, avoids_cons]

/-- A type or an expression goes on with such a character. -/
def goesOn (c : Char) : Bool :=
  isIdentChar c || c == '.' || c == '?'

/-- A type or an expression ends before the text, in which none of the characters comes first
after blanks. -/
structure Ends (next : List Char) (s : List Char) : Prop where
  here : Avoids goesOn s
  later : Avoids next.contains (skipBlanks s)

namespace Ends

variable {next : List Char} {s : List Char}

/-- A solid character that neither goes on nor is excluded ends what comes before. -/
theorem of_solid {c : Char} (hc : isSolid c = true) (hgoes : goesOn c = false)
    (hnext : next.contains c = false) (s : List Char) : Ends next (c :: s) :=
  ⟨avoids_cons.mpr hgoes, avoids_skipBlanks_cons hc hnext s⟩

/-- A blank ends what comes before, if nothing excluded comes first after blanks. -/
theorem of_blank {c : Char} (hc : isSpace c = true) (hgoes : goesOn c = false)
    (h : Avoids next.contains (skipBlanks s)) : Ends next (c :: s) :=
  ⟨avoids_cons.mpr hgoes, by rwa [skipBlanks_cons_of_isSpace hc]⟩

/-- A new line with blanks at its start. -/
theorem of_line (blanks : List Char) (hblanks : ∀ c ∈ blanks, isSpace c = true) {c : Char}
    (hc : isSolid c = true) (hnext : next.contains c = false) (s : List Char) :
    Ends next ('\n' :: (blanks ++ c :: s)) := by
  refine of_blank (by decide) (by decide) ?_
  rw [skipBlanks_append hblanks]
  exact avoids_skipBlanks_cons hc hnext s

/-- What ends before a text with more characters excluded ends with fewer. -/
theorem mono (h : Ends next s) {next' : List Char} (hnext : ∀ c ∈ next', c ∈ next) :
    Ends next' s :=
  ⟨h.here, h.later.mono fun c hc => by
    rw [List.contains_iff_mem] at hc ⊢
    exact hnext c hc⟩

/-- An identifier ends where a type or an expression does. -/
theorem word (h : Ends next s) : Avoids isIdentChar s :=
  h.here.mono fun c hc => by simp [goesOn, hc]

/-- No excluded character comes first after blanks. -/
theorem avoids (h : Ends next s) {c : Char} (hc : c ∈ next) : Avoids (· == c) (skipBlanks s) :=
  h.later.mono fun d hd => by simp_all

/-- A number ends where an expression does. -/
theorem number (h : Ends next s) : EndsNumber s :=
  ⟨h.word, by rintro rest rfl; exact absurd h.here (by simp [goesOn])⟩

end Ends

/-- An expression starts with such a character. -/
def startsExpr (c : Char) : Bool :=
  isIdentStart c || startsValue c || c == '['

/-- What starts an expression is solid. -/
theorem isSolid_of_startsExpr {c : Char} (h : startsExpr c = true) : isSolid c = true := by
  cases hc : isSolid c with
  | true => rfl
  | false =>
    simp only [isSolid, isSpace, Bool.and_eq_false_iff, Bool.not_eq_false', Bool.or_eq_true,
      beq_iff_eq, bne_eq_false_iff_eq] at hc
    obtain (((rfl | rfl) | rfl) | rfl) | rfl := hc <;> exact absurd h (by decide)

/-- What starts an identifier starts an expression. -/
theorem startsExpr_of_isIdentStart {c : Char} (h : isIdentStart c = true) :
    startsExpr c = true := by
  simp [startsExpr, h]

/-- A name is read, with blanks before it, where no identifier character follows. -/
theorem reads_spaced_identifier {name : String} (h : isIdentifier name = true) :
    (spaced identifier).Reads name.toList name (Avoids isIdentChar) := by
  obtain ⟨c, more, hname, hc, -⟩ := exists_cons_of_isIdentifier h
  exact (reads_identifier h).spaced hname (isSolid_of_startsExpr (startsExpr_of_isIdentStart hc))

/-! ## Types -/

/-- Reads type arguments. -/
def typeArguments (depth : Nat) : Reader (List TypeExpr) := do
  symbol '<'
  let args ← sepBy₁ (symbol ',') (type depth)
  commit (symbol '>')
  return args

/-- How a type is read, one level up from its arguments. -/
theorem type_succ (depth : Nat) : type (depth + 1) = (do
    let name ← spaced identifier
    let args ← optional (typeArguments depth)
    let nullable ← optional (char '?')
    return .mk name (args.getD []) nullable.isSome) := rfl

/-- The reader of types skips blanks. -/
theorem lenient_type (depth : Nat) : (type depth).Lenient := by
  cases depth with
  | zero => exact lenient_fail
  | succ depth => exact (lenient_spaced _).bind _

/-- Type arguments are read back if their types are. -/
theorem reads_arguments {depth : Nat} {args : List TypeExpr}
    (h : ∀ arg ∈ args, (type depth).Reads arg.text.toList arg (Ends ['<'])) :
    ∃ found, found.getD [] = args ∧ (optional (typeArguments depth)).Reads
      (TypeExpr.argumentsText args) found fun rest => Avoids (· == '<') (skipBlanks rest) := by
  cases args with
  | nil => exact ⟨none, rfl, reads_optional_none fun rest hrest => (misses_symbol hrest).bind _⟩
  | cons arg args =>
    refine ⟨some (arg :: args), rfl, (Reads.optional ?_).mono fun _ _ => trivial⟩
    have hitems : (sepBy₁ (symbol ',') (type depth)).Reads
        (arg.text.toList ++ args.flatMap fun arg => [',', ' '] ++ arg.text.toList)
        (arg :: args) fun rest => ∃ more, rest = '>' :: more := by
      refine reads_commaSeparated (lenient_type depth) h
        (fun rest => .of_solid (by decide) (by decide) (by decide) _) ?_
      rintro _ ⟨more, rfl⟩
      exact ⟨.of_solid (by decide) (by decide) (by decide) _,
        avoids_skipBlanks_cons (by decide) (by decide) _⟩
    exact (reads_symbol (by decide)).bind (hitems.bind
      ((reads_symbol (by decide)).commit.map _) fun rest _ => ⟨rest, rfl⟩) fun _ _ => trivial

/-- The mark of a nullable type is read where it stands, and missed where it does not. -/
theorem reads_mark (nullable : Bool) : ∃ mark : Option Unit, mark.isSome = nullable ∧
    (optional (char '?')).Reads (TypeExpr.markText nullable) mark (Ends ['<']) := by
  cases nullable with
  | true => exact ⟨some (), rfl, (reads_char '?').optional.mono fun _ _ => trivial⟩
  | false =>
    refine ⟨none, rfl, reads_optional_none fun rest hrest => misses_char ?_⟩
    exact hrest.here.mono fun c hc => by simp_all [goesOn]

/-- Types are read back. By induction on the depth; the arguments have shorter texts. -/
theorem reads_type {depth : Nat} {t : TypeExpr} (ht : t.wellNamed = true)
    (hdepth : t.text.toList.length < depth) : (type depth).Reads t.text.toList t (Ends ['<']) := by
  induction depth generalizing t with
  | zero => exact absurd hdepth (Nat.not_lt_zero _)
  | succ depth ih =>
    obtain ⟨name, args, nullable⟩ := t
    rw [TypeExpr.wellNamed, Bool.and_eq_true, TypeExpr.wellNamedList_eq_all,
      List.all_eq_true] at ht
    rw [TypeExpr.toList_text] at hdepth ⊢
    have hname : 0 < name.toList.length := by
      obtain ⟨c, more, hcons, -⟩ := exists_cons_of_isIdentifier ht.1
      simp [hcons]
    simp only [List.length_append] at hdepth
    obtain ⟨found, hfound, hargs⟩ := reads_arguments fun arg (harg : arg ∈ args) =>
      ih (ht.2 arg harg) (by have := TypeExpr.length_le_argumentsText harg; omega)
    obtain ⟨mark, rfl, hmark⟩ := reads_mark nullable
    have hmarked : ∀ rest, Ends ['<'] rest →
        Avoids isIdentChar (TypeExpr.markText mark.isSome ++ rest) ∧
          Avoids (· == '<') (skipBlanks (TypeExpr.markText mark.isSome ++ rest)) := by
      intro rest hrest
      cases mark with
      | some =>
        exact ⟨avoids_cons.mpr (by decide), avoids_skipBlanks_cons (by decide) (by decide) _⟩
      | none => exact ⟨hrest.word, hrest.avoids (List.mem_singleton_self _)⟩
    rw [type_succ]
    refine (reads_spaced_identifier ht.1).bind
      (hargs.bind ?_ fun rest hrest => (hmarked rest hrest).2)
      fun rest hrest => ?_
    · rw [hfound]
      exact hmark.map fun mark => TypeExpr.mk name args mark.isSome
    · cases args with
      | nil => exact (hmarked rest hrest).1
      | cons arg args => exact avoids_cons.mpr (by decide)

/-! ## Expressions -/

/-- The expression has only names and literals that are read back. -/
structure IsTypeable (e : Expr) : Prop where
  named : e.wellNamed = true
  literals : ∀ value ∈ e.literals, value.isTypeable = true

/-- The items of a list that is read back are read back. -/
theorem IsTypeable.of_mem {items : List Expr} (h : IsTypeable (.list items)) {item : Expr}
    (hitem : item ∈ items) : IsTypeable item := by
  obtain ⟨hnamed, hliterals⟩ := h
  rw [Expr.wellNamed, Expr.wellNamedList_eq_all, List.all_eq_true] at hnamed
  rw [Expr.literals, Expr.literalsList_eq_flatMap] at hliterals
  exact ⟨hnamed item hitem, fun value hvalue =>
    hliterals value (List.mem_flatMap_of_mem hitem hvalue)⟩

/-- The head of an expression that is read back is read back. -/
theorem IsTypeable.head {e : Expr} (h : IsTypeable e) : IsTypeable e.head :=
  ⟨(Expr.wellNamed_head_path h.named).1, by rw [Expr.literals_head]; exact h.literals⟩

/-- The expression has only names and plain literals. -/
structure IsPlain (e : Expr) : Prop where
  named : e.wellNamed = true
  literals : ∀ value ∈ e.literals, value.isPlain = true

/-- Plain literals are read back. -/
theorem IsPlain.typeable {e : Expr} (h : IsPlain e) : IsTypeable e :=
  ⟨h.named, fun value hvalue => Literal.isTypeable_of_isPlain (h.literals value hvalue)⟩

/-- A number starts with its sign or a digit. -/
theorem exists_cons_signed (negative : Bool) {cs : List Char} (hcs : cs ≠ [])
    (hdigits : ∀ c ∈ cs, c.isDigit = true) : ∃ c more,
      signText negative ++ cs = c :: more ∧ startsExpr c = true ∧ c ≠ 'r' := by
  cases negative with
  | true => exact ⟨'-', cs, rfl, by decide, by decide⟩
  | false =>
    obtain ⟨c, more, rfl⟩ := List.exists_cons_of_ne_nil hcs
    have hc := hdigits c (List.mem_cons_self ..)
    refine ⟨c, more, rfl, by simp [startsExpr, startsValue, hc], ?_⟩
    rintro rfl
    exact absurd hc (by decide)

/-- A literal starts with the start of an expression, and not as the word `return` does. -/
theorem exists_cons_text_literal {value : Literal} (h : value.isTypeable = true) :
    ∃ c more, value.text.toList = c :: more ∧ startsExpr c = true ∧ c ≠ 'r' := by
  cases value with
  | int value =>
    obtain ⟨negative, cs, htext, hcs, hdigits, -⟩ := toList_text_int value
    obtain ⟨c, more, hcons, hstart⟩ := exists_cons_signed negative hcs hdigits
    exact ⟨c, more, htext.trans hcons, hstart⟩
  | float value =>
    obtain ⟨d, htext, -⟩ := toList_text_of_isPositional h
    obtain ⟨c, more, hcons, hstart⟩ :=
      exists_cons_signed value.isNegative d.whole_ne_nil d.whole_digits
    refine ⟨c, more ++ '.' :: d.fraction, ?_, hstart⟩
    rw [Literal.text, htext, Decimal.text, ← List.append_assoc, hcons, List.cons_append]
  | bool value =>
    cases value with
    | true => exact ⟨'t', _, rfl, by decide, by decide⟩
    | false => exact ⟨'f', _, rfl, by decide, by decide⟩
  | string text =>
    exact ⟨'"', text.toList.flatMap Text.quoteChar ++ ['"'], by
      simp [Literal.text, Text.quote, Text.quoteChars], by decide, by decide⟩
  | null => exact ⟨'n', _, rfl, by decide, by decide⟩

/-- Where an expression starts; one that starts as the word `return` does is a name or has it as
its head. -/
theorem exists_cons_text {e : Expr} (h : IsTypeable e) : ∃ c more, e.text.toList = c :: more ∧
    startsExpr c = true ∧ (c = 'r' → ∃ id, e.head = .name id) := by
  obtain ⟨c, more, htext, hc, hr⟩ : ∃ c more, e.head.text.toList = c :: more ∧
      startsExpr c = true ∧ (c = 'r' → ∃ id, e.head = .name id) := by
    have hpath := e.path_head
    obtain ⟨hnamed, hliterals⟩ := h.head
    generalize e.head = head at hpath hnamed hliterals
    cases head with
    | literal value =>
      obtain ⟨c, more, htext, hc, hr⟩ :=
        exists_cons_text_literal (hliterals value (List.mem_singleton_self _))
      exact ⟨c, more, htext, hc, fun h => absurd h hr⟩
    | list items =>
      rw [Expr.toList_text_list]
      exact ⟨'[', _, rfl, by decide, fun h => absurd h (by decide)⟩
    | this => exact ⟨'t', _, rfl, by decide, fun h => absurd h (by decide)⟩
    | backing => exact ⟨'f', _, rfl, by decide, fun h => absurd h (by decide)⟩
    | name id =>
      rw [Expr.wellNamed, Bool.and_eq_true] at hnamed
      obtain ⟨c, more, hid, hc, -⟩ := exists_cons_of_isIdentifier hnamed.1
      exact ⟨c, more, hid, startsExpr_of_isIdentStart hc, fun _ => ⟨id, rfl⟩⟩
    | member target id => exact absurd hpath (by simp [Expr.path])
    | _ => cases hnamed
  exact ⟨c, _, by rw [Expr.toList_text, htext]; rfl, hc, hr⟩

/-- Nothing is read as an expression where none starts. -/
theorem misses_primary {depth : Nat} {s : List Char} (h : Avoids startsExpr s) :
    (primary depth).Misses s := by
  have hword : s.takeWhile isIdentChar = [] := by
    refine Avoids.takeWhile_eq_nil (h.mono fun c hc => ?_)
    simp only [isIdentChar, Char.isAlphanum, Bool.or_eq_true] at hc
    obtain (hc | hc) | hc := hc <;> simp [startsExpr, isIdentStart, startsValue, hc]
  have hkeyword : ∀ word : String, IsWord word → word.toList ≠ [] → (keyword word).Misses s :=
    fun word hw hne => misses_keyword hw fun h => hne (h.symm.trans hword)
  simp only [primary, misses_orElse_iff]
  refine ⟨Misses.bind (misses_literal ?_ ?_) _, Misses.bind (misses_char ?_) _,
    Misses.bind (hkeyword "this" (by decide) (by decide)) _,
    Misses.bind (hkeyword "field" (by decide) (by decide)) _, Misses.bind ?_ _⟩
  · exact h.mono fun c hc => by simp [startsExpr, hc]
  · rw [hword]
    decide
  · exact h.mono fun c hc => by simp [startsExpr, hc]
  · exact misses_identifier (h.mono fun c hc => startsExpr_of_isIdentStart hc)

/-- No expression is read where nothing starts one. -/
theorem misses_expr {depth : Nat} {s : List Char} (h : Avoids startsExpr (skipBlanks s)) :
    (expr depth).Misses s := by
  cases depth with
  | zero => exact misses_fail s
  | succ depth => exact Misses.bind (misses_primary h) _

/-- The reader of expressions skips blanks. -/
theorem lenient_expr (depth : Nat) : (expr depth).Lenient := by
  cases depth with
  | zero => exact lenient_fail
  | succ depth => exact (lenient_spaced _).bind _

/-- A list is read back if its items are. -/
theorem reads_list {depth : Nat} {items : List Expr}
    (h : ∀ item ∈ items, (expr depth).Reads item.text.toList item (Ends [])) :
    Reader.Reads (do
        char '['
        let items ← sepBy (symbol ',') (expr depth)
        commit (symbol ']')
        return Expr.list items) (Expr.list items).text.toList (.list items) fun _ => True := by
  have hitems : (sepBy (symbol ',') (expr depth)).Reads (Expr.itemsText items) items
      fun rest => ∃ more, rest = ']' :: more := by
    cases items with
    | nil =>
      refine Reads.map (reads_optional_none ?_) fun found => found.getD []
      rintro _ ⟨more, rfl⟩
      exact (misses_expr (avoids_skipBlanks_cons (by decide) (by decide) _)).bind _
    | cons item items =>
      refine Reads.map (Reads.optional ?_) fun found => found.getD []
      refine reads_commaSeparated (lenient_expr depth) h
        (fun rest => .of_solid (by decide) (by decide) (by decide) _) ?_
      rintro _ ⟨more, rfl⟩
      exact ⟨.of_solid (by decide) (by decide) (by decide) _,
        avoids_skipBlanks_cons (by decide) (by decide) _⟩
  rw [Expr.toList_text_list]
  exact (reads_char '[').bind (hitems.bind ((reads_symbol (by decide)).commit.map fun _ =>
    Expr.list items) fun rest _ => ⟨rest, rfl⟩) fun _ _ => trivial

/-- A word that is no literal is missed as a literal and as a list. -/
theorem misses_before_word {word : String} (hword : isIdentifier word = true)
    (hother : word ∉ literalWords) {rest : List Char} (hrest : Avoids isIdentChar rest) :
    literal.Misses (word.toList ++ rest) ∧ (char '[').Misses (word.toList ++ rest) := by
  have hword' := isWord_of_isIdentifier hword
  obtain ⟨c, more, hcons, hc, -⟩ := exists_cons_of_isIdentifier hword
  constructor
  · refine misses_literal ?_ fun other hmem hsame => ?_
    · rw [hcons]
      exact avoids_startsValue hc _
    · rw [takeWhile_append_of_avoids hword' hrest] at hsame
      rw [String.toList_inj.mp hsame] at hother
      exact hother hmem
  · rw [hcons]
    refine misses_char (avoids_cons.mpr (beq_eq_false_iff_ne.mpr ?_))
    rintro rfl
    exact absurd hc (by decide)

/-- The head of a path is read back if the items of a list are. -/
theorem reads_primary {depth : Nat} {head : Expr} (h : IsTypeable head) (hpath : head.path = [])
    (hitems : ∀ items, head = .list items → ∀ item ∈ items,
      (expr depth).Reads item.text.toList item (Ends [])) :
    (primary depth).Reads head.text.toList head EndsNumber := by
  have hbefore : ∀ word : String, isIdentifier word = true → word ∉ literalWords →
      ∀ rest, EndsNumber rest → literal.Misses (word.toList ++ rest) ∧
        (char '[').Misses (word.toList ++ rest) :=
    fun _ hword hother rest hrest => misses_before_word hword hother hrest.here
  cases head with
  | literal value =>
    exact ((reads_literal (h.literals value (List.mem_singleton_self _))).map
      Expr.literal).orElse _
  | list items =>
    refine reads_orElse (fun rest _ => ?_) (((reads_list (hitems items rfl)).orElse _).mono
      fun _ _ => trivial)
    have hbracket : ∀ word ∈ literalWords, [] ≠ word.toList := by decide
    rw [Expr.toList_text_list, List.append_assoc, List.singleton_append]
    refine Misses.bind (misses_literal (avoids_cons.mpr (by decide)) fun word hword => ?_) _
    rw [(avoids_cons.mpr (by decide)).takeWhile_eq_nil]
    exact hbracket word hword
  | this =>
    have hmiss := hbefore "this" (by decide) (by decide)
    refine reads_orElse (fun rest hrest => (hmiss rest hrest).1.bind _) ?_
    refine reads_orElse (fun rest hrest => (hmiss rest hrest).2.bind _) ?_
    exact (((reads_keyword "this").map fun _ => Expr.this).orElse _).mono
      fun rest hrest => hrest.here
  | backing =>
    have hmiss := hbefore "field" (by decide) (by decide)
    refine reads_orElse (fun rest hrest => (hmiss rest hrest).1.bind _) ?_
    refine reads_orElse (fun rest hrest => (hmiss rest hrest).2.bind _) ?_
    refine reads_orElse (fun rest hrest => ?_) ?_
    · exact Misses.bind (misses_other_keyword (by decide : "field" ≠ "this") (by decide) (by decide)
        hrest.here) _
    · exact (((reads_keyword "field").map fun _ => Expr.backing).orElse _).mono
        fun rest hrest => hrest.here
  | name id =>
    have hnamed := h.named
    simp only [Expr.wellNamed, Bool.and_eq_true, Bool.not_eq_true', List.contains_eq_mem,
      decide_eq_false_iff_not, Expr.words, List.mem_cons, not_or] at hnamed
    obtain ⟨hid, htrue, hfalse, hnull, hthis, hfield, -⟩ := hnamed
    have hmiss := hbefore id hid (by simp [literalWords, htrue, hfalse, hnull])
    have hword := isWord_of_isIdentifier hid
    refine reads_orElse (fun rest hrest => (hmiss rest hrest).1.bind _) ?_
    refine reads_orElse (fun rest hrest => (hmiss rest hrest).2.bind _) ?_
    refine reads_orElse (fun rest hrest => ?_) (reads_orElse (fun rest hrest => ?_) ?_)
    · exact Misses.bind (misses_other_keyword hthis hword (by decide) hrest.here) _
    · exact Misses.bind (misses_other_keyword hfield hword (by decide) hrest.here) _
    · exact ((reads_identifier hid).map Expr.name).mono fun rest hrest => hrest.here
  | member target id => exact absurd hpath (by simp [Expr.path])
  | _ => cases h.named

/-- A point and a name are read as one step of a path. -/
theorem reads_pathStep {id : String} (hid : isIdentifier id = true) :
    pathStep.Reads ('.' :: id.toList) id (Avoids isIdentChar) :=
  (reads_char '.').bind (reads_identifier hid) fun _ _ => trivial

/-- A point between members starts no fraction. -/
theorem endsNumber_path {path : List String} (hpath : ∀ id ∈ path, isIdentifier id = true)
    {rest : List Char} (hrest : Ends [] rest) :
    EndsNumber (path.flatMap (fun id => '.' :: id.toList) ++ rest) := by
  cases path with
  | nil => exact hrest.number
  | cons id path =>
    rw [List.forall_mem_cons] at hpath
    obtain ⟨c, more, hid, hc, -⟩ := exists_cons_of_isIdentifier hpath.1
    refine ⟨avoids_cons.mpr (by decide), ?_⟩
    rintro _ ⟨⟩
    rw [hid]
    refine (avoids_startsValue hc _).mono fun d hd => ?_
    simp [startsValue, hd]

/-- Expressions are read back. By induction on the depth; the items of a list have shorter
texts. -/
theorem reads_expr (depth : Nat) {e : Expr} (h : IsTypeable e)
    (hdepth : e.text.toList.length < depth) :
    (expr depth).Reads e.text.toList e (Ends []) := by
  induction depth generalizing e with
  | zero => exact absurd hdepth (Nat.not_lt_zero _)
  | succ depth ih =>
    obtain ⟨c, more, htext, hc, -⟩ := exists_cons_text h.head
    have hlength := congrArg List.length e.toList_text
    rw [List.length_append] at hlength
    have hprimary : (primary depth).Reads e.head.text.toList e.head EndsNumber := by
      refine reads_primary h.head e.path_head fun items hlist item hitem => ih ?_ ?_
      · have hitems := h.head
        rw [hlist] at hitems
        exact hitems.of_mem hitem
      · have hitems := congrArg (fun e => e.text.toList.length) hlist
        have hle := Expr.length_le_itemsText hitem
        simp only [Expr.toList_text_list, List.length_append, List.length_singleton] at hitems
        omega
    have hpath : Reads (many pathStep) (e.path.flatMap fun id => '.' :: id.toList) e.path
        (Ends []) := by
      have hids := (Expr.wellNamed_head_path h.named).2
      refine reads_many (fun id hid => reads_pathStep (hids id hid))
        (fun _ _ => List.cons_ne_nil _ _)
        (fun _ _ _ => avoids_cons.mpr (by decide)) fun rest hrest => ⟨hrest.word, ?_⟩
      exact Misses.bind (misses_char (hrest.here.mono fun c hc => by simp_all [goesOn])) _
    have hread : (expr (depth + 1)).Reads (e.head.text.toList ++ e.path.flatMap fun id =>
        '.' :: id.toList) (e.path.foldl Expr.member e.head) (Ends []) := by
      rw [expr_succ]
      exact (hprimary.spaced htext (isSolid_of_startsExpr hc)).bind (hpath.map _)
        fun rest hrest => endsNumber_path (Expr.wellNamed_head_path h.named).2 hrest
    rwa [← Expr.toList_text, Expr.foldl_member_head_path] at hread

end VersionedObjects.Grammar
